import Tyrne.Bsp.Alarm
import Tyrne.Bsp.KernelMain
import Tyrne.Sched.Placement

/-!
# The first dispatch

The kernel that `kernel_main_high` leaves. Its IPC objects and its scheduler are ones that their own
operations reach from nothing, so that every result about such runs is one about the board, and
the first user task is bound to the address space that holds its image.
-/

namespace Tyrne

open Spaces CapabilityTable MainM Prog

variable [Build] {sym : KernelSymbols}

/-! ## The tasks and the endpoint -/

section Tasks

omit [Build] in
theorem loadedTable_wellFormed : loadedTable.WellFormed :=
  bootstrapTable_wellFormed.installed rfl
    (WellFormed.childEntry_leaf rfl (by decide) (by decide))

/-- The handle of the task in slot `n`, as the boot creates it. -/
def bootTask (n : Index) : TaskHandle := ⟨⟨n, 0⟩⟩

/-- The first `3` tasks. -/
def kernelTasks : TaskArena :=
  ((Arena.new.allocated 0 ⟨0, bootstrapAddressSpaceHandle⟩).allocated 1
    ⟨1, bootstrapAddressSpaceHandle⟩).allocated 2 ⟨2, bootstrapAddressSpaceHandle⟩

omit [Build] in
theorem kernelTasks_wellFormed : kernelTasks.WellFormed :=
  (((Arena.new_wellFormed (by decide)).allocated rfl).allocated rfl).allocated rfl

def userSpaceHandle : AddressSpaceHandle := ⟨⟨1, 0⟩⟩

def userTaskCap : Capability :=
  ⟨(CapRights.duplicate.union .derive).union .revoke, .task (bootTask 3)⟩

omit [Build] in
theorem loaded_lookup : Returns (lookup ⟨1, 0⟩) loadedTable
    ⟨.empty, .addressSpace userSpaceHandle⟩ loadedTable :=
  lookup_installed bootstrapTable_wellFormed rfl

omit [Build] in
theorem userTask_lookup : Returns (lookup ⟨2, 0⟩) (loadedTable.installed 2 (rootEntry userTaskCap))
    userTaskCap (loadedTable.installed 2 (rootEntry userTaskCap)) :=
  lookup_installed loadedTable_wellFormed rfl

variable {loaded : LoadedImage}

/-- The user task is created in slot 3, and its capability in slot 2. -/
theorem taskCreateFromImage_boot (hloaded : loaded.asCap = ⟨1, 0⟩) :
    Returns (taskCreateFromImage loaded 3 ((CapRights.duplicate.union .derive).union .revoke))
      ⟨loadedTable, kernelTasks⟩ ⟨2, 0⟩
      ⟨loadedTable.installed 2 (rootEntry userTaskCap),
        kernelTasks.allocated 3 ⟨3, userSpaceHandle⟩⟩ := by
  have hlookup : Returns (TaskTables.onTable TaskCreateError.invalidAddressSpaceCap (lookup ⟨1, 0⟩))
      ⟨loadedTable, kernelTasks⟩ ⟨.empty, .addressSpace userSpaceHandle⟩
      ⟨loadedTable, kernelTasks⟩ := .zoom loaded_lookup
  have htask : Returns (createTask ⟨3, userSpaceHandle⟩) kernelTasks (bootTask 3)
      (kernelTasks.allocated 3 ⟨3, userSpaceHandle⟩) :=
    createTask_head kernelTasks_wellFormed rfl _
  have hroot : Returns (insertRoot userTaskCap) loadedTable ⟨2, 0⟩
      (loadedTable.installed 2 (rootEntry userTaskCap)) :=
    insertRoot_head loadedTable_wellFormed rfl _
  have hspace : Returns (loadedAddressSpace ⟨1, 0⟩) ⟨loadedTable, kernelTasks⟩ userSpaceHandle
      ⟨loadedTable, kernelTasks⟩ := .bind hlookup (.pure _)
  unfold taskCreateFromImage
  rw [hloaded]
  refine .bind hspace ?_
  refine .bind (.zoom htask) ?_
  refine .bind (.attempt (.zoom hroot)) ?_
  exact .pure _

/-- The four tasks of the boot, and the capability of the last. -/
theorem createTasks_run {s : Statics} (htable : s.bootstrapAsTable = loadedTable)
    (hloaded : loaded.asCap = ⟨1, 0⟩) :
    Returns (createTasks loaded) s
      ⟨bootTask 0, bootTask 1, bootTask 2, bootTask 3, userSpaceHandle⟩
      { s with
        bootstrapAsTable := loadedTable.installed 2 (rootEntry userTaskCap)
        taskArena := kernelTasks.allocated 3 ⟨3, userSpaceHandle⟩ } := by
  have hnew := Arena.new_wellFormed (T := Task) (N := taskArenaCapacity) (by decide)
  have ha : Returns (createTask ⟨0, bootstrapAddressSpaceHandle⟩) Arena.new (bootTask 0) _ :=
    createTask_head hnew rfl _
  have hwfA : (Arena.new.allocated 0 ⟨0, bootstrapAddressSpaceHandle⟩ : TaskArena).WellFormed :=
    hnew.allocated rfl
  have hb : Returns (createTask ⟨1, bootstrapAddressSpaceHandle⟩) _ (bootTask 1) _ :=
    createTask_head hwfA rfl _
  have hwfB : ((Arena.new.allocated 0 ⟨0, bootstrapAddressSpaceHandle⟩).allocated 1
      ⟨1, bootstrapAddressSpaceHandle⟩ : TaskArena).WellFormed := hwfA.allocated rfl
  have hidle : Returns (createTask ⟨2, bootstrapAddressSpaceHandle⟩) _ (bootTask 2) kernelTasks :=
    createTask_head hwfB rfl _
  have hcreate := taskCreateFromImage_boot hloaded
  have hspace := loaded_lookup
  have huser := userTask_lookup
  rw [← hloaded] at hspace
  rw [← htable] at hcreate hspace huser ⊢
  unfold createTasks
  refine .bind (.modify _) ?_
  refine .bind (.expect (returns_onTaskArena ha) _) ?_
  refine .bind (.expect (returns_onTaskArena hb) _) ?_
  refine .bind (.expect (returns_onTaskArena hidle) _) ?_
  refine .bind (.expect (returns_onBootstrapAsTable (by exact hspace)) _) ?_
  refine .bind (.pure _) ?_
  refine .bind (.expect (returns_onTaskTables (by exact hcreate)) _) ?_
  refine .bind (.expect (returns_onBootstrapAsTable (by exact huser)) _) ?_
  refine .bind (.pure _) ?_
  exact .pure _

/-- The tables after `initIpc`. -/
def endpointTable : CapabilityTable :=
  CapabilityTable.new.installed 0 (rootEntry ⟨CapRights.send.union .recv, .endpoint ⟨⟨0, 0⟩⟩⟩)

def consoleTable : CapabilityTable :=
  CapabilityTable.new.installed 0 (rootEntry ⟨.consoleWrite, .debugConsole⟩)

/-- An endpoint, with a capability of it for A and for B, and the console for the user task. -/
theorem initIpc_run (s : Statics) : Returns initIpc s () { s with
    epArena := Arena.new.allocated 0 ⟨0⟩
    tableA := endpointTable
    tableB := endpointTable
    userTaskTable := consoleTable
    ipcQueues := IpcQueues.new
    failclosedTable := CapabilityTable.new
    epCapA := ⟨0, 0⟩
    epCapB := ⟨0, 0⟩ } := by
  have hendpoint : Returns (createEndpoint ⟨0⟩) Arena.new ⟨⟨0, 0⟩⟩ (Arena.new.allocated 0 ⟨0⟩) :=
    createEndpoint_head (Arena.new_wellFormed (by decide)) rfl _
  have hroot : Returns (insertRoot ⟨CapRights.send.union .recv, .endpoint ⟨⟨0, 0⟩⟩⟩)
      CapabilityTable.new ⟨0, 0⟩ endpointTable := insertRoot_head new_wellFormed rfl _
  have hconsole : Returns (insertRoot ⟨.consoleWrite, .debugConsole⟩)
      CapabilityTable.new ⟨0, 0⟩ consoleTable := insertRoot_head new_wellFormed rfl _
  unfold initIpc
  refine .bind (.modify _) ?_
  refine .bind (.expect (returns_onEpArena hendpoint) _) ?_
  refine .bind (.modify _) ?_
  refine .bind (.expect (returns_onTableA hroot) _) ?_
  refine .bind (.expect (returns_onTableB hroot) _) ?_
  refine .bind (.modify _) ?_
  refine .bind (.expect (returns_onUserTaskTable hconsole) _) ?_
  refine .bind (.pure _) ?_
  exact .modify _

end Tasks

/-- The operations that set up the IPC objects. -/
def bootSetup (sym : KernelSymbols) : List (IpcOp TablePtr) := [
  .createEndpoint ⟨0⟩,
  .table sym.tableA (.insertRoot ⟨CapRights.send.union .recv, .endpoint ⟨⟨0, 0⟩⟩⟩),
  .table sym.tableB (.insertRoot ⟨CapRights.send.union .recv, .endpoint ⟨⟨0, 0⟩⟩⟩),
  .table sym.userTaskTable (.insertRoot ⟨.consoleWrite, .debugConsole⟩)]

/-- The IPC objects that they set up. -/
def bootIpc (sym : KernelSymbols) : IpcSystem TablePtr where
  tables ptr :=
    if ptr = sym.tableA then endpointTable
    else if ptr = sym.tableB then endpointTable
    else if ptr = sym.userTaskTable then consoleTable
    else CapabilityTable.new
  epArena := Arena.new.allocated 0 ⟨0⟩
  notifArena := Arena.new
  queues := IpcQueues.new

section Setup

open IpcSystem

theorem IpcSystem.Step.of_returns {op : IpcOp TablePtr} {s s' : IpcSystem TablePtr}
    {reply : IpcReply} (hexec : Returns (IpcSystem.exec op) s reply s') :
    Step s ⟨s, op, .ok reply, s'⟩ s' :=
  ⟨rfl, rfl, hexec⟩

/-- A root capability goes into a table that is empty. -/
theorem insertRoot_step {s : IpcSystem TablePtr} (who : TablePtr)
    (hnew : s.tables who = CapabilityTable.new) (cap : Capability) :
    Step s ⟨s, .table who (.insertRoot cap), .ok (.table (.handle ⟨0, 0⟩)),
        s.setTable who (CapabilityTable.new.installed 0 (rootEntry cap))⟩
      (s.setTable who (CapabilityTable.new.installed 0 (rootEntry cap))) := by
  have hroot : Returns (insertRoot cap) CapabilityTable.new ⟨0, 0⟩
      (CapabilityTable.new.installed 0 (rootEntry cap)) := insertRoot_head new_wellFormed rfl _
  have hop : Returns (TableOp.insertRoot cap).exec (s.tables who) (.handle ⟨0, 0⟩)
      (CapabilityTable.new.installed 0 (rootEntry cap)) := by
    rw [hnew]
    exact hroot.bind (.pure _)
  exact .of_returns (Returns.bind (.zoom hop) (.pure _))

/-- The set-up, from no object at all. -/
theorem bootIpc_run (h : sym.Linked) : ∃ evs, Run Step IpcSystem.boot evs (bootIpc sym) ∧
    evs.map (·.op) = bootSetup sym ∧ ∀ ev ∈ evs, Drained ev := by
  have htables := h.tables
  simp only [List.nodup_cons, List.mem_cons, not_or] at htables
  obtain ⟨⟨hAB, hAU, -, -⟩, ⟨hBU, -, -⟩, -⟩ := htables
  have hendpoint : Returns (createEndpoint ⟨0⟩) Arena.new ⟨⟨0, 0⟩⟩ (Arena.new.allocated 0 ⟨0⟩) :=
    createEndpoint_head (Arena.new_wellFormed (by decide)) rfl _
  have hexec : Returns (IpcSystem.exec (τ := TablePtr) (.createEndpoint ⟨0⟩)) IpcSystem.boot
      (.endpoint ⟨⟨0, 0⟩⟩) { IpcSystem.boot with epArena := Arena.new.allocated 0 ⟨0⟩ } :=
    .bind (.zoom (by exact hendpoint)) (.pure _)
  have hcreate := Step.of_returns hexec
  have hA := insertRoot_step (s := { IpcSystem.boot with epArena := Arena.new.allocated 0 ⟨0⟩ })
    sym.tableA rfl ⟨CapRights.send.union .recv, .endpoint ⟨⟨0, 0⟩⟩⟩
  have hB := insertRoot_step (s := IpcSystem.setTable
    { IpcSystem.boot with epArena := Arena.new.allocated 0 ⟨0⟩ } sym.tableA endpointTable)
    sym.tableB (Function.update_of_ne (Ne.symm hAB) _ _)
    ⟨CapRights.send.union .recv, .endpoint ⟨⟨0, 0⟩⟩⟩
  have hU := insertRoot_step (s := IpcSystem.setTable (IpcSystem.setTable
    { IpcSystem.boot with epArena := Arena.new.allocated 0 ⟨0⟩ } sym.tableA endpointTable)
      sym.tableB endpointTable) sym.userTaskTable
    ((Function.update_of_ne (Ne.symm hBU) _ _).trans (Function.update_of_ne (Ne.symm hAU) _ _))
    ⟨.consoleWrite, .debugConsole⟩
  have hipc : IpcSystem.setTable (IpcSystem.setTable (IpcSystem.setTable
      { IpcSystem.boot with epArena := Arena.new.allocated 0 ⟨0⟩ } sym.tableA endpointTable)
        sym.tableB endpointTable) sym.userTaskTable consoleTable = bootIpc sym := by
    unfold bootIpc IpcSystem.setTable IpcSystem.boot
    congr 1
    funext ptr
    simp only [Function.update_apply]
    split_ifs <;> simp_all
  rw [← hipc]
  exact ⟨_, .cons hcreate (.cons hA (.cons hB (.single hU))), rfl, by simp [Drained]⟩

end Setup

/-! ## The scheduler -/

section Registering

open Scheduler Kernel

/-- The registrations of the boot, and the first dispatch. -/
def bootRegistrations (sym : KernelSymbols) (userEntry userSp : ℕ) : List KernelOp := [
  .addTask (bootTask 1) bootstrapAddressSpaceHandle sym.taskB (taskStackTop sym.taskBStack),
  .addTask (bootTask 0) bootstrapAddressSpaceHandle sym.taskA (taskStackTop sym.taskAStack),
  .addUserTask (bootTask 3) userSpaceHandle userEntry userSp (taskStackTop sym.userTaskStack)
    sym.userTaskTable,
  .registerIdle (bootTask 2) bootstrapAddressSpaceHandle sym.idleEntry
    (taskStackTop sym.taskIdleStack),
  .start]

variable {loaded : LoadedImage} {ipc : IpcSystem TablePtr}

theorem KernelStep.of_returns {op : KernelOp} {k k' : Kernel} {reply : KernelReply}
    (hexec : Returns (Kernel.exec op) k reply k') (henabled : op.Enabled k.core.running)
    (hdisciplined : op.Disciplined k) : KernelStep k ⟨k, op, .ok reply, k'⟩ k' :=
  ⟨rfl, rfl, henabled, hdisciplined, hexec⟩

section Steps

/-- What a registration at boot leaves, with the ready queue `q'`. -/
structure Boots (k : Kernel) (op : KernelOp) (handle : TaskHandle) (idle : Option TaskHandle)
    (q' ex : List TaskHandle) (s' : Scheduler) : Prop where
  step : KernelStep k ⟨k, op, .ok .registered, { k with sched := s' }⟩ { k with sched := s' }
  inv : Inv { k with sched := s' } q' ex
  taskHandles : s'.taskHandles = Function.update k.sched.taskHandles handle.slot.index (some handle)
  idle : s'.idle = idle

variable {k : Kernel} {q ex : List TaskHandle} (handle : TaskHandle) (space : AddressSpaceHandle)
  (hinv : k.Inv q ex) (hboot : k.core.running = .boot) (hvacant : k.Vacant handle)
include hinv hboot hvacant

theorem addTask_boots (entry stackTop : ℕ) : ∃ s',
    Returns (addTask handle space entry stackTop) k.sched () s' ∧
      Boots k (.addTask handle space entry stackTop) handle k.sched.idle (q ++ [handle]) ex s' := by
  obtain ⟨r, s', hr, hrun, hreg⟩ : ∃ r s', r.Represents (q ++ [handle]) ∧
      Returns (addTask handle space entry stackTop) k.sched () s' ∧
      Registers k.sched handle space r k.sched.idle (.kernelEntry entry stackTop) s' :=
    addTask_run hinv.part.ready (hinv.room hvacant) hvacant.1
  have heffect : Effect k q ex (.addTask handle space entry stackTop) (.ok .registered)
      { k with sched := s' } (q ++ [handle]) ex := .joined rfl hvacant hreg rfl hr
  have hexec : Returns (exec (.addTask handle space entry stackTop)) k .registered
      { k with sched := s' } := .bind (onSched_ok hrun) (.pure _)
  exact ⟨s', hrun, .of_returns hexec (Or.inl hboot) hvacant, heffect.inv hinv, hreg.taskHandles,
    hreg.idle⟩

theorem addUserTask_boots {userSp kernelStackTop : ℕ} {capTable : TablePtr} (userEntry : ℕ)
    (hstack : kernelStackTop ≠ 0 ∧ kernelStackTop % 16 = 0) (hsp : userSp % 16 = 0)
    (htable : capTable ≠ 0) : ∃ s',
    Returns (addUserTask handle space userEntry userSp kernelStackTop capTable) k.sched () s' ∧
      Boots k (.addUserTask handle space userEntry userSp kernelStackTop capTable) handle
        k.sched.idle (q ++ [handle]) ex s' := by
  obtain ⟨r, s', hr, hrun, hreg⟩ : ∃ r s', r.Represents (q ++ [handle]) ∧
      Returns (addUserTask handle space userEntry userSp kernelStackTop capTable) k.sched () s' ∧
      Registers k.sched handle space r k.sched.idle
        (.userEntry userEntry userSp kernelStackTop) s' :=
    addUserTask_run hinv.part.ready (hinv.room hvacant) hvacant.1 hstack hsp htable
  have heffect : Effect k q ex (.addUserTask handle space userEntry userSp kernelStackTop capTable)
      (.ok .registered) { k with sched := s' } (q ++ [handle]) ex := .joined rfl hvacant hreg rfl hr
  have hexec : Returns (exec (.addUserTask handle space userEntry userSp kernelStackTop capTable)) k
      .registered { k with sched := s' } := .bind (onSched_ok hrun) (.pure _)
  exact ⟨s', hrun, .of_returns hexec (Or.inl hboot) ⟨hvacant, hstack, hsp, htable⟩,
    heffect.inv hinv, hreg.taskHandles, hreg.idle⟩

theorem registerIdle_boots (hnone : k.sched.idle = none) (entry stackTop : ℕ) : ∃ s',
    Returns (registerIdle handle space entry stackTop) k.sched () s' ∧
      Boots k (.registerIdle handle space entry stackTop) handle (some handle) q ex s' := by
  obtain ⟨s', hrun, hreg⟩ : ∃ s', Returns (registerIdle handle space entry stackTop) k.sched () s' ∧
      Registers k.sched handle space k.sched.ready (some handle) (.kernelEntry entry stackTop) s' :=
    registerIdle_run hnone hvacant.1
  have heffect : Effect k q ex (.registerIdle handle space entry stackTop) (.ok .registered)
      { k with sched := s' } q ex := .idled rfl hvacant hnone hreg rfl
  have hexec : Returns (exec (.registerIdle handle space entry stackTop)) k .registered
      { k with sched := s' } := .bind (onSched_ok hrun) (.pure _)
  exact ⟨s', hrun, .of_returns hexec (Or.inl hboot) ⟨hvacant, hnone⟩, heffect.inv hinv,
    hreg.taskHandles, hreg.idle⟩

end Steps

/-- The scheduler takes the tasks, and dispatches B. -/
theorem initScheduler_run (h : sym.Linked) (hsound : ipc.Sound)
    (hsp : loaded.stackTopVa.val % 16 = 0) : ∃ sched k evs,
    (∀ s, Returns (initScheduler sym loaded
        ⟨bootTask 0, bootTask 1, bootTask 2, bootTask 3, userSpaceHandle⟩) s () { s with sched }) ∧
      Returns Kernel.start ⟨sched, ⟨.boot, none⟩, ipc⟩ () k ∧
      Run KernelStep (boot ipc) evs k ∧
      evs.map (·.op) = bootRegistrations sym loaded.entryVa.val loaded.stackTopVa.val ∧
      k.ipc = ipc ∧ k.sched.current = some (bootTask 1) ∧
      k.sched.ready.Represents [bootTask 0, bootTask 3] ∧ k.sched.idle = some (bootTask 2) := by
  obtain ⟨sB, hrunB, hB⟩ := addTask_boots (bootTask 1) bootstrapAddressSpaceHandle
    (boot_inv hsound) rfl ⟨by decide, rfl⟩ sym.taskB
    (taskStackTop sym.taskBStack)
  have hfreeA : sB.taskHandles 0 = none := by
    rw [hB.taskHandles]
    rfl
  obtain ⟨sA, hrunA, hA⟩ := addTask_boots (bootTask 0) bootstrapAddressSpaceHandle
    hB.inv rfl ⟨by decide, hfreeA⟩ sym.taskA
    (taskStackTop sym.taskAStack)
  have hfreeU : sA.taskHandles 3 = none := by
    rw [hA.taskHandles, hB.taskHandles]
    rfl
  obtain ⟨sU, hrunU, hU⟩ := addUserTask_boots (bootTask 3) userSpaceHandle
    hA.inv rfl ⟨by decide, hfreeU⟩ loaded.entryVa.val
    (⟨Nat.succ_ne_zero _, h.userStack⟩ : taskStackTop sym.userTaskStack ≠ 0 ∧ _) hsp h.userTable
  have hfreeI : sU.taskHandles 2 = none := by
    rw [hU.taskHandles, hA.taskHandles, hB.taskHandles]
    rfl
  have hnone : sU.idle = none := by
    rw [hU.idle, hA.idle, hB.idle]
    rfl
  obtain ⟨sI, hrunI, hI⟩ := registerIdle_boots (bootTask 2) bootstrapAddressSpaceHandle
    hU.inv rfl ⟨by decide, hfreeI⟩ hnone sym.idleEntry
    (taskStackTop sym.taskIdleStack)
  -- the first dispatch
  have hcan : CanDispatch { boot ipc with sched := sI } := by
    refine Or.inr ?_
    rw [hI.idle]
    exact Option.some_ne_none _
  obtain ⟨n, rest, r, hpick, hr, hstart⟩ := dispatch_run hI.inv hcan
  have hfirst : n = bootTask 1 ∧ rest = [bootTask 0, bootTask 3] := by
    cases hpick
    exact ⟨rfl, rfl⟩
  obtain ⟨rfl, rfl⟩ := hfirst
  have hdispatch : KernelStep { boot ipc with sched := sI } ⟨_, .start, .ok .switched, _⟩ _ :=
    .of_returns (.bind hstart (.pure _)) rfl hcan
  refine ⟨sI, _, _, fun s => ?_, hstart, .cons hB.step (.cons hA.step (.cons hU.step (.cons hI.step
    (.single hdispatch)))), rfl, rfl, rfl, hr, hI.idle⟩
  unfold initScheduler
  refine .bind (.modify _) ?_
  refine .bind (.expect (returns_onSched (by exact hrunB)) _) ?_
  refine .bind (.expect (returns_onSched (by exact hrunA)) _) ?_
  refine .bind (.expect (returns_onSched (by exact hrunU)) _) ?_
  exact returns_onSched (by exact hrunI)

end Registering

/-! ## The boot -/

omit [Build] in
theorem PhysFrame.exists_of_aligned {pa : ℕ} (haligned : pa % pageSize = 0) :
    ∃ frame : PhysFrame, frame.asUsize = pa :=
  ⟨⟨⟨pa⟩, haligned⟩, rfl⟩

/-- The kernel that the boot leaves: the IPC objects are those that a run of their operations sets
up, the kernel one that its own operations reach; B is dispatched and the user task queued, with
the console as its only capability. -/
structure Started (sym : KernelSymbols) (loaded : LoadedImage) (s : Statics) : Prop where
  setup : ∃ evs, Run IpcSystem.Step IpcSystem.boot evs (s.ipc sym) ∧
    evs.map (·.op) = bootSetup sym
  run : ∃ evs, Run KernelStep (Kernel.boot (s.ipc sym)) evs (s.kernel sym) ∧
    evs.map (·.op) = bootRegistrations sym loaded.entryVa.val loaded.stackTopVa.val
  current : s.sched.current = some (bootTask 1)
  ready : s.sched.ready.Represents [bootTask 0, bootTask 3]
  idle : s.sched.idle = some (bootTask 2)
  tasks : getTask s.taskArena (bootTask 3) = some ⟨3, userSpaceHandle⟩
  table : s.tableAt sym sym.userTaskTable = consoleTable
  console : (lookup helloConsoleCap).run consoleTable =
    .ok ⟨.consoleWrite, .debugConsole⟩ consoleTable

omit [Build] in
/-- The statics hold those objects. -/
theorem Statics.ipc_eq {s : Statics} (hA : s.tableA = endpointTable) (hB : s.tableB = endpointTable)
    (hU : s.userTaskTable = consoleTable) (hF : s.failclosedTable = CapabilityTable.new)
    (harena : s.epArena = Arena.new.allocated 0 ⟨0⟩) (hqueues : s.ipcQueues = IpcQueues.new) :
    s.ipc sym = bootIpc sym := by
  unfold Statics.ipc bootIpc
  rw [harena, hqueues]
  congr 1
  funext ptr
  unfold Statics.tableAt
  rw [hA, hB, hU, hF, ite_self]

omit [Build] in
theorem bootIpc_userTask (h : sym.Linked) :
    (bootIpc sym).tables sym.userTaskTable = consoleTable := by
  have htables := h.tables
  simp only [List.nodup_cons, List.mem_cons, not_or] at htables
  obtain ⟨⟨-, hAU, -, -⟩, ⟨hBU, -, -⟩, -⟩ := htables
  unfold bootIpc
  dsimp only
  rw [if_neg (Ne.symm hAU), if_neg (Ne.symm hBU), if_pos rfl]

omit [Build] in
/-- What the rest of the boot leaves alone. -/
structure Statics.Keeps (s s' : Statics) : Prop where
  memory : s'.memory = s.memory
  pmm : s'.pmm = s.pmm
  asArena : s'.asArena = s.asArena
  core : s'.core = s.core

/-- What is left once the image is loaded. -/
theorem startKernel_run (h : sym.Linked) (cpu : QemuVirtCpu) {loaded : LoadedImage}
    (hcap : loaded.asCap = ⟨1, 0⟩) (hsp : loaded.stackTopVa.val % 16 = 0) {s : Statics}
    (htable : s.bootstrapAsTable = loadedTable) (hcore : s.core = ⟨.boot, none⟩) :
    ∃ s', Returns (startKernel sym cpu loaded) s () s' ∧ Started sym loaded s' ∧
      s'.memory = s.memory ∧ s'.pmm = s.pmm ∧ s'.asArena = s.asArena := by
  obtain ⟨setup, hsetup, hops, hdrained⟩ := bootIpc_run h
  obtain ⟨sched, k, evs, hsched, hstart, hrun, hregistered, hipc, hcurrent, hready, hidle⟩ :=
    initScheduler_run h (IpcSystem.boot_sound.run hsetup hdrained) hsp
  obtain ⟨irq, hirq⟩ := startInterrupts_returns s.irq
  obtain ⟨s₂, hrun₂, hkeeps₂, htasks₂⟩ : ∃ s₂, Returns (createTasks loaded)
      { s with irq, console := s.console ++ strBytes (timerLine cpu ++ "\n") }
      ⟨bootTask 0, bootTask 1, bootTask 2, bootTask 3, userSpaceHandle⟩ s₂ ∧ s.Keeps s₂ ∧
      s₂.taskArena = kernelTasks.allocated 3 ⟨3, userSpaceHandle⟩ :=
    ⟨_, createTasks_run htable hcap, ⟨rfl, rfl, rfl, rfl⟩, rfl⟩
  obtain ⟨s₃, hrun₃, hkeeps₃, htasks₃, hipc₃⟩ : ∃ s₃, Returns initIpc s₂ () s₃ ∧ s₂.Keeps s₃ ∧
      s₃.taskArena = s₂.taskArena ∧ s₃.ipc sym = bootIpc sym :=
    ⟨_, initIpc_run s₂, ⟨rfl, rfl, rfl, rfl⟩, rfl, Statics.ipc_eq rfl rfl rfl rfl rfl rfl⟩
  have hcore₃ : s₃.core = ⟨.boot, none⟩ := hkeeps₃.core.trans (hkeeps₂.core.trans hcore)
  obtain ⟨console, hline⟩ : ∃ console, Returns (writeLine "tyrne: starting cooperative scheduler")
      { s₃ with sched } () { s₃ with sched, console } := ⟨_, .modify _⟩
  have hview : Statics.kernel sym { s₃ with sched, console } =
      ⟨sched, ⟨.boot, none⟩, bootIpc sym⟩ := by
    show (⟨sched, s₃.core, s₃.ipc sym⟩ : Kernel) = _
    rw [hcore₃, hipc₃]
  rw [← hview] at hstart
  have hzoom : Returns (Prog.zoom (Statics.kernel sym)
      (fun k s => { s with sched := k.sched, core := k.core }) id Kernel.start) _ () _ :=
    .zoom hstart
  refine ⟨{ s₃ with sched := k.sched, core := k.core, console }, ?_, ?_, ?_⟩
  · unfold startKernel
    refine .bind (returns_onIrq hirq) ?_
    refine .bind (.modify _) ?_
    refine .bind (by exact hrun₂) ?_
    refine .bind hrun₃ ?_
    refine .bind (hsched s₃) ?_
    refine .bind hline ?_
    exact hzoom
  · have hipc' : Statics.ipc sym { s₃ with sched := k.sched, core := k.core, console } =
        bootIpc sym := hipc₃
    have hkernel : (⟨k.sched, k.core, bootIpc sym⟩ : Kernel) = k := by rw [← hipc]
    refine ⟨⟨setup, hipc'.symm ▸ hsetup, hops⟩, ⟨evs, ?_, hregistered⟩, hcurrent, hready, hidle, ?_,
      (congrFun (congrArg IpcSystem.tables hipc') _).trans (bootIpc_userTask h),
      lookup_installed new_wellFormed rfl⟩
    · unfold Statics.kernel
      rw [hipc', hkernel]
      exact hrun
    · show getTask s₃.taskArena (bootTask 3) = _
      rw [htasks₃, htasks₂]
      rfl
  · exact ⟨hkeeps₃.memory.trans hkeeps₂.memory, hkeeps₃.pmm.trans hkeeps₂.pmm,
      hkeeps₃.asArena.trans hkeeps₂.asArena⟩

/-- At EL1, with a frequency in its register and an image that the linker has placed, nothing of
the boot fails, and the user task is bound to the address space that holds its image. -/
theorem kernelMainHigh_boots (h : sym.Linked) {cntfrq : BitVec 64} (hfreq : cntfrq ≠ 0)
    {s : Statics} (hcore : s.core = ⟨.boot, none⟩) :
    ∃ s' loaded root, Returns (kernelMainHigh sym 1 cntfrq) s () s' ∧ Started sym loaded s' ∧
      s'.asArena.get userSpaceHandle.slot = some ⟨⟨root⟩⟩ ∧
      ProcessImage sym.userspaceImage userspaceImageBaseVa userspaceStackPages s.memory ⟨root⟩
        loaded (⟨s'.pmm, s'.memory⟩ : Supply BspPmm) := by
  obtain ⟨hwindow, haligned⟩ := h.bootPtL0
  obtain ⟨l0Root, hroot⟩ := PhysFrame.exists_of_aligned haligned
  obtain ⟨cpu, hcpu, -⟩ := QemuVirtCpu.new_run (ε := SchedError) (c := s.irq) hfreq
  obtain ⟨bootNs, hnow⟩ : ∃ ns, Returns (cpu.nowNs : IrqM SchedError (BitVec 64)) s.irq ns s.irq :=
    ⟨_, QemuVirtCpu.nowNs_run cpu⟩
  obtain ⟨console₁, hline⟩ : ∃ console, Returns (writeLine "tyrne: high-half active") s ()
      { s with console } := ⟨_, .modify _⟩
  obtain ⟨pmm, console₂, hpmm, hmodels⟩ := h.initPmm_run { s with console := console₁, bootNs }
  obtain ⟨console₃, hspaces⟩ := initAddressSpaces_run hwindow hroot
    { s with console := console₂, bootNs, pmm }
  obtain ⟨loaded, machine, root, frame, t, hload, hloads, hcap⟩ :=
    h.loadUserspaceImage_run (s := { s with
      console := console₃
      bootNs
      pmm
      asArena := bootstrapArena l0Root
      bootstrapAs := ⟨l0Root⟩
      bootstrapAsTable := bootstrapTable
      bootstrapAsCap := ⟨0, 0⟩ }) hmodels rfl rfl rfl
  have hsp : loaded.stackTopVa.val % 16 = 0 := by
    have hbase : userspaceImageBaseVa.val = 0x80_0000 := rfl
    rw [hloads.top, hbase]
    unfold pageSize
    omega
  obtain ⟨s₁, hload, hmemory, hpmm₁, harena, htable, hcore₁⟩ : ∃ s₁,
      Returns (loadUserspaceImage sym) { s with
        console := console₃
        bootNs
        pmm
        asArena := bootstrapArena l0Root
        bootstrapAs := ⟨l0Root⟩
        bootstrapAsTable := bootstrapTable
        bootstrapAsCap := ⟨0, 0⟩ } loaded s₁ ∧
      s₁.memory = machine.memory ∧ s₁.pmm = machine.frames ∧ s₁.asArena = loadedArena l0Root root ∧
      s₁.bootstrapAsTable = loadedTable ∧ s₁.core = s.core :=
    ⟨_, hload, rfl, rfl, rfl, rfl, rfl⟩
  obtain ⟨s', hstart, hstarted, hmemory', hpmm', harena'⟩ :=
    startKernel_run h cpu hcap hsp htable (hcore₁.trans hcore)
  refine ⟨s', loaded, root, ?_, hstarted, ?_, ?_⟩
  · unfold kernelMainHigh
    refine .bind (returns_onIrq hcpu) ?_
    refine .bind hline ?_
    refine .bind (returns_onIrq (by exact hnow)) ?_
    refine .bind (.modify _) ?_
    refine .bind (by exact hpmm) ?_
    refine .bind (by exact hspaces) ?_
    exact .bind hload hstart
  · rw [harena', harena]
    exact hloads.names.2
  · rw [hmemory', hpmm', hmemory, hpmm₁]
    exact hloads.processImage

/-- An image of 64 bytes and a boot stack, above the kernel's text. -/
def qemuSymbols : KernelSymbols where
  stackTop := kernelHighHalfOffset + 0x400C_0000
  bootPtL0 := kernelHighHalfOffset + 0x4009_0000
  userspaceImage := ⟨kernelHighHalfOffset + 0x4008_8000, 64⟩
  taskA := kernelHighHalfOffset + 0x4008_1000
  taskB := kernelHighHalfOffset + 0x4008_1100
  idleEntry := kernelHighHalfOffset + 0x4008_1200
  taskAStack := kernelHighHalfOffset + 0x400A_0000
  taskBStack := kernelHighHalfOffset + 0x400A_1000
  taskIdleStack := kernelHighHalfOffset + 0x400A_2000
  userTaskStack := kernelHighHalfOffset + 0x400A_3000
  failclosedTable := kernelHighHalfOffset + 0x400A_4000
  tableA := kernelHighHalfOffset + 0x400A_5000
  tableB := kernelHighHalfOffset + 0x400A_6000
  userTaskTable := kernelHighHalfOffset + 0x400A_7000

/-- The statics at reset. -/
def qemuStatics : Statics where
  memory _ := 0
  console := []
  irq := resetCore
  bootNs := 0
  pmm := ⟨fun _ => 0, pmmExtent, fun _ => none, 0, 0, 0, 0⟩
  asArena := Arena.new
  bootstrapAs := ⟨⟨⟨0x4009_0000⟩, rfl⟩⟩
  bootstrapAsCap := ⟨0, 0⟩
  bootstrapAsTable := CapabilityTable.new
  taskArena := Arena.new
  epArena := Arena.new
  ipcQueues := IpcQueues.new
  failclosedTable := CapabilityTable.new
  tableA := CapabilityTable.new
  tableB := CapabilityTable.new
  userTaskTable := CapabilityTable.new
  epCapA := ⟨0, 0⟩
  epCapB := ⟨0, 0⟩
  sched := Scheduler.new
  core := ⟨.boot, none⟩

omit [Build] in
theorem qemuSymbols_linked : qemuSymbols.Linked where
  stackTop := by decide
  memory := by decide
  bootPtL0 := by decide
  nonempty := by decide
  imageStart := by decide
  imageEnd := by decide
  userStack := by decide
  userTable := by decide
  tables := by decide

omit [Build] in
theorem kernelMainHigh_boots_qemu : let _ : Build := debugBuild
    ∃ s' loaded root, Returns (kernelMainHigh qemuSymbols 1 62500000) qemuStatics () s' ∧
      Started qemuSymbols loaded s' ∧
      s'.asArena.get userSpaceHandle.slot = some ⟨⟨root⟩⟩ ∧
      ProcessImage qemuSymbols.userspaceImage userspaceImageBaseVa userspaceStackPages
        qemuStatics.memory ⟨root⟩ loaded (⟨s'.pmm, s'.memory⟩ : Supply BspPmm) := by
  intro _
  exact kernelMainHigh_boots qemuSymbols_linked (by decide) rfl

end Tyrne
