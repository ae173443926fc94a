import Tyrne.Bsp.Bindings

/-!
# Failed bridge calls in runs of the system

Whatever was called before, by tasks of the kernel and of user space, and in which order,
the ready queue is a queue, the IPC state is sound, and no task is blocked while none is
current. That is all that the rollback of a failed bridge call rests on.
-/

namespace Tyrne

open Scheduler IpcSystem Kernel

/-! ## The kernel after any operations -/

section Ordered

variable {AS : Type} [Build] [Mmu AS]

theorem System.exec_ordered (op : SystemOp AS) :
    (System.exec op).Preserves fun s => s.kernel.Ordered := by
  cases op with
  | kernel op =>
    exact (onKernel_triple (Kernel.exec_ordered op)).bind fun _ => Prog.Triple.pure fun _ hs => hs
  | syscall args =>
    rintro s ⟨b, hheld⟩
    have hentry : (syscallEntry args : SystemM AS _).Preserves fun t =>
        t.kernel.Held (fun _ => True) b := syscallEntry_held
    refine Prog.Triple.bind (Q := fun _ t => t.kernel.Ordered)
      (hentry.post (fun _ _ ht => ⟨b, ht⟩) fun _ _ ht => ⟨b, ht⟩) (fun _ => ?_) s hheld
    exact Prog.Triple.pure fun _ hs => hs
  | store memory asArena =>
    refine Prog.Triple.bind (Q := fun _ t => t.kernel.Ordered)
      (Prog.Triple.modify fun _ hs => hs) fun _ => ?_
    exact Prog.Triple.pure fun _ hs => hs

namespace TaskSystem

abbrev kernel (s : TaskSystem AS) : Kernel := s.system.kernel

variable {s s' : TaskSystem AS} {evs : List (TaskSystemEvent AS)}

theorem exec_ordered (op : TaskSystemOp AS) :
    (exec op).Preserves fun s => s.kernel.Ordered := by
  cases op with
  | createTask task =>
    exact (onTasks_preserves fun t => t.kernel.Ordered).bind fun _ =>
      Prog.Triple.pure fun _ hs => hs
  | destroyTask handle =>
    exact (onTasks_preserves fun t => t.kernel.Ordered).bind fun _ =>
      Prog.Triple.pure fun _ hs => hs
  | system op =>
    refine Prog.Triple.bind (Q := fun _ s => s.kernel.Ordered) ((System.exec_ordered op).zoom
      (fun _ hs => hs) (fun _ _ _ _ hs => hs) fun _ _ _ _ hs => hs) fun _ => ?_
    exact Prog.Triple.pure fun _ hs => hs

/-- From boot, any operations leave the kernel ordered. -/
theorem ordered_of_run {setup : List (IpcSystem.Event TablePtr)} {ipc : IpcSystem TablePtr}
    (hsetup : Run IpcSystem.Step IpcSystem.boot setup ipc) (hdrained : ∀ ev ∈ setup, Drained ev)
    (hboot : s.kernel = boot ipc) (hrun : Run TaskSystemCall s evs s') : s'.kernel.Ordered := by
  refine hrun.invariant (I := fun t => t.kernel.Ordered) (fun t ev t' ht hcall => ?_) ?_
  · obtain ⟨before, op, reply, after⟩ := ev
    obtain ⟨rfl, rfl, hexec⟩ := hcall
    obtain ⟨hok, herr⟩ := exec_ordered op before ht
    cases reply with
    | ok reply => exact hok reply after hexec
    | error err => exact herr err after hexec
  · rw [hboot]
    exact ⟨_, boot_held (boot_sound.run hsetup hdrained)⟩

end TaskSystem

end Ordered

namespace TaskSystem

variable {AS : Type} [Build] [Mmu AS] {s s' : TaskSystem AS} {evs : List (TaskSystemEvent AS)}
  {setup : List (IpcSystem.Event TablePtr)} {ipc : IpcSystem TablePtr}

/-! ## Sends -/

/-- In every state that any operations have reached: a failed send changes nothing, unless
it is made without a current task on an endpoint whose receiver is waiting, and all its
other checks pass. -/
theorem sendAndYield_atomic_iff (hsetup : Run IpcSystem.Step IpcSystem.boot setup ipc)
    (hdrained : ∀ ev ∈ setup, Drained ev) (hboot : s.kernel = boot ipc)
    (hrun : Run TaskSystemCall s evs s') (table : TablePtr) (epCap : CapHandle) (msg : Message)
    (transfer : Option CapHandle) :
    (∀ err k', (ipcSendAndYield table epCap msg transfer).run s'.kernel = .err err k' →
      s'.kernel.Unchanged k') ↔
    ¬ (s'.kernel.sched.current = none ∧
      ∃ ep, Deliverable (s'.kernel.ipc.call table) epCap transfer ep) :=
  (ordered_of_run hsetup hdrained hboot hrun).sendAndYield_unchanged_iff table epCap msg transfer

/-- The board with `ipc` set up, before the first task. -/
def boarded (ipc : IpcSystem TablePtr) : TaskSystem Unit := ⟨System.board (boot ipc), Arena.new⟩

/-- A single task that is dispatched. -/
def aloneOps : List (TaskSystemOp Unit) :=
  [.createTask ⟨0, ⟨⟨0, 0⟩⟩⟩, .system (.kernel (.addTask ⟨⟨0, 0⟩⟩ ⟨⟨0, 0⟩⟩ 4096 8192)),
    .system (.kernel .start), .system (.kernel .resume)]

/-- It sends to the endpoint, where no receiver waits. -/
def queuedOps : List (TaskSystemOp Unit) :=
  aloneOps ++ [.system (.kernel (.sendAndYield 2 ⟨0, 0⟩ ⟨1, 2, 3, 4⟩ none))]

omit [Build] [Mmu AS] in
/-- Its second send finds the endpoint full. -/
theorem sendAndYield_atomic_iff_full : let _ : Build := debugBuild
    let _ : Mmu Unit := System.noMmu
    let s := Run.afterTrace event TaskSystemEvent.after (boarded twoReceivers) queuedOps
    s.kernel.sched.current = some ⟨⟨0, 0⟩⟩ ∧
      s.kernel.ipc.queues.effective ⟨⟨0, 0⟩⟩ = .sendPending ⟨1, 2, 3, 4⟩ none ∧
      ∃ k', (ipcSendAndYield 2 ⟨0, 0⟩ ⟨5, 6, 7, 8⟩ none).run s.kernel = .err (.ipc .queueFull) k' ∧
        s.kernel.Unchanged k' := by
  intro _ _ s
  obtain ⟨setup, hsetup, hdrained⟩ := twoReceivers_run
  have hcurrent : s.kernel.sched.current = some ⟨⟨0, 0⟩⟩ := by with_unfolding_all rfl
  have hpending : s.kernel.ipc.queues.effective ⟨⟨0, 0⟩⟩ = .sendPending ⟨1, 2, 3, 4⟩ none := by
    with_unfolding_all rfl
  obtain ⟨k', hfail⟩ : ∃ k', (ipcSendAndYield 2 ⟨0, 0⟩ ⟨5, 6, 7, 8⟩ none).run s.kernel =
      .err (.ipc .queueFull) k' := ⟨_, by with_unfolding_all rfl⟩
  refine ⟨hcurrent, hpending, k', hfail, ?_⟩
  refine (sendAndYield_atomic_iff hsetup hdrained rfl (Run.trace_run event TaskSystemEvent.after
    call_of_event (boarded twoReceivers) queuedOps) 2 ⟨0, 0⟩ ⟨5, 6, 7, 8⟩ none).mpr ?_ _ k' hfail
  rintro ⟨hnone, -⟩
  have hcon := hcurrent.symm.trans hnone
  cases hcon

/-- The receiver of table `1` waits on the endpoint. -/
def waitingReceiver : IpcSystem TablePtr := twoReceivers.performed (.recv 1 ⟨0, 0⟩)

omit [Build] [Mmu AS] in
theorem waitingReceiver_run : ∃ setup, @Run _ _ (@IpcSystem.Step TablePtr _ ⟨true⟩)
    IpcSystem.boot setup waitingReceiver ∧ ∀ ev ∈ setup, Drained ev := by
  obtain ⟨setup, hsetup, hdrained⟩ := twoReceivers_run
  have hwaits := IpcSystem.performed_step twoReceivers (.recv 1 ⟨0, 0⟩) (.received .pending)
    (by with_unfolding_all rfl)
  refine ⟨_, hsetup.snoc hwaits, fun ev hev => ?_⟩
  rcases List.mem_append.mp hev with hev | hev
  · exact hdrained ev hev
  · rw [List.mem_singleton.mp hev]
    trivial

omit [Build] [Mmu AS] in
/-- A send before the first dispatch to the waiting receiver: it reports that no task is
current, and leaves its message in the endpoint. -/
theorem sendAndYield_commits : ∃ (setup : List (IpcSystem.Event TablePtr)) (k' : Kernel),
    @Run _ _ (@IpcSystem.Step TablePtr _ ⟨true⟩) IpcSystem.boot setup waitingReceiver ∧
    (∀ ev ∈ setup, Drained ev) ∧
    (@ipcSendAndYield ⟨true⟩ 2 ⟨0, 0⟩ ⟨1, 2, 3, 4⟩ none).run (boot waitingReceiver) =
      .err .noCurrentTask k' ∧
    k'.ipc.queues.effective ⟨⟨0, 0⟩⟩ = .recvComplete ⟨1, 2, 3, 4⟩ none ∧
    ¬ (boot waitingReceiver).Unchanged k' := by
  let _ : Build := ⟨true⟩
  obtain ⟨setup, hsetup, hdrained⟩ := waitingReceiver_run
  obtain ⟨k', hrun, hstored⟩ : ∃ k', (ipcSendAndYield 2 ⟨0, 0⟩ ⟨1, 2, 3, 4⟩ none).run
      (boot waitingReceiver) = .err .noCurrentTask k' ∧
      k'.ipc.queues.effective ⟨⟨0, 0⟩⟩ = .recvComplete ⟨1, 2, 3, 4⟩ none :=
    ⟨_, by with_unfolding_all rfl, by with_unfolding_all rfl⟩
  refine ⟨setup, k', hsetup, hdrained, hrun, hstored, fun hsame => ?_⟩
  have hwaiting : waitingReceiver.queues.effective ⟨⟨0, 0⟩⟩ = .recvWaiting := by
    with_unfolding_all rfl
  have hlive : Live waitingReceiver.epArena ⟨⟨0, 0⟩⟩ := by
    with_unfolding_all rfl
  have hkept : k'.ipc.queues.effective ⟨⟨0, 0⟩⟩ = waitingReceiver.queues.effective ⟨⟨0, 0⟩⟩ :=
    hsame.queues _ hlive
  rw [hstored, hwaiting] at hkept
  cases hkept

/-! ## Receives -/

/-- In every state that any operations have reached: a receive that fails without having
switched changes nothing. -/
theorem recvAndYield_rollback {table : TablePtr} {epCap : CapHandle} {err : SchedError}
    {k' : Kernel} (hsetup : Run IpcSystem.Step IpcSystem.boot setup ipc)
    (hdrained : ∀ ev ∈ setup, Drained ev) (hboot : s.kernel = boot ipc)
    (hrun : Run TaskSystemCall s evs s')
    (hfail : (ipcRecvAndYield table epCap).run s'.kernel = .err err k') :
    s'.kernel.Unchanged k' :=
  (ordered_of_run hsetup hdrained hboot hrun).recvAndYield_unchanged hfail

omit [Build] [Mmu AS] in
/-- The receive of a single task on the idle endpoint is a deadlock. -/
theorem recvAndYield_rollback_alone : let _ : Build := debugBuild
    let _ : Mmu Unit := System.noMmu
    let s := Run.afterTrace event TaskSystemEvent.after (boarded twoReceivers) aloneOps
    ∃ k', (ipcRecvAndYield 1 ⟨0, 0⟩).run s.kernel = .err .deadlock k' ∧ s.kernel.Unchanged k' := by
  intro _ _ s
  obtain ⟨setup, hsetup, hdrained⟩ := twoReceivers_run
  obtain ⟨k', hfail⟩ : ∃ k', (ipcRecvAndYield 1 ⟨0, 0⟩).run s.kernel = .err .deadlock k' :=
    ⟨_, by with_unfolding_all rfl⟩
  exact ⟨k', hfail, recvAndYield_rollback hsetup hdrained rfl (Run.trace_run event
    TaskSystemEvent.after call_of_event (boarded twoReceivers) aloneOps) hfail⟩

end TaskSystem

end Tyrne
