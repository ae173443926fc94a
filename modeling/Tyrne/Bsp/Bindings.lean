import Tyrne.Bsp.Runs
import Tyrne.Sched.Registration

/-!
# Bindings of reused slots

The bindings of a task are kept by slot, and the slot outlives its task. Registering a
kernel task leaves the table and the window of the slot as they are, so a kernel task in
the slot of a user task that is gone runs with the bindings of that task. Where every
kernel task is registered in a slot without bindings, and no user task in the slot of a
task that is still scheduled, the running task has the bindings of its own registration.
-/

namespace Tyrne

open Scheduler IpcSystem

/-! ## Registrations -/

namespace NewTask

/-- The table that the task runs with. -/
def capTable : NewTask → Option TablePtr
  | .kernel .. => none
  | .user _ _ _ capTable => if capTable ≠ 0 then some capTable else none

/-- The window that the task runs with. -/
def userWindow : NewTask → Option UserAccessWindow
  | .kernel .. => none
  | .user userEntry userSp _ _ => some ⟨userEntry, userSp - userEntry⟩

end NewTask

/-- What the scheduler is told about a task. -/
structure Registration where
  space : AddressSpaceHandle
  task : NewTask

/-- The registration of every handle so far. -/
abbrev Registrations := TaskHandle → Option Registration

namespace KernelOp

/-- The handle and the task that the operation registers. -/
def registers : KernelOp → Option (TaskHandle × Registration)
  | .addTask handle space entry stackTop => some (handle, ⟨space, .kernel entry stackTop⟩)
  | .addUserTask handle space userEntry userSp kernelStackTop capTable =>
    some (handle, ⟨space, .user userEntry userSp kernelStackTop capTable⟩)
  | .registerIdle handle space entry stackTop => some (handle, ⟨space, .kernel entry stackTop⟩)
  | _ => none

/-- The registrations once the operation has returned. -/
def recorded (op : KernelOp) (regs : Registrations) : Registrations :=
  match op.registers with
  | some (h, r) => Function.update regs h (some r)
  | none => regs

/-- The queue has room for the task, where it goes to the queue. -/
def HasRoom (op : KernelOp) (s : Scheduler) : Prop :=
  match op with
  | .addTask .. => s.ready.len < taskArenaCapacity
  | .addUserTask .. => s.ready.len < taskArenaCapacity
  | _ => True

end KernelOp

/-- The task runs, is ready to run, or is the idle task. -/
inductive Scheduler.Scheduled (s : Scheduler) (h : TaskHandle) : Prop
  | current : s.current = some h → Scheduled s h
  | ready (q : List TaskHandle) : s.ready.Represents q → h ∈ q → Scheduled s h
  | idle : s.idle = some h → Scheduled s h

/-- The slot has the bindings of the registration; the address space is that of a user
task. -/
structure Scheduler.Bindings.Matches (b : Bindings) (i : Index) (r : Registration) : Prop where
  capTable : b.taskCapTables i = r.task.capTable
  userWindow : b.taskUserWindows i = r.task.userWindow
  space : r.task.userWindow ≠ none → b.taskAddressSpaceHandles i = some r.space

/-- A kernel task is registered in a slot without bindings, and a user task in a slot
where no other task is scheduled that would run with other bindings. -/
def KernelOp.Fresh (op : KernelOp) (s : Scheduler) : Prop :=
  ∀ h r, op.registers = some (h, r) → op.HasRoom s →
    match r.task with
    | .kernel .. =>
      s.taskCapTables h.slot.index = none ∧ s.taskUserWindows h.slot.index = none
    | .user .. => ∀ h', s.Scheduled h' → h' ≠ h → h'.slot.index = h.slot.index →
      s.bindings.Matches h.slot.index r

namespace Kernel

variable {k : Kernel} {regs : Registrations} {b : Bindings} {h h' : TaskHandle}
  {r : Registration} {i : Index}

/-- The slot of the handle has the bindings of its registration. -/
def Bound (regs : Registrations) (b : Bindings) (h : TaskHandle) : Prop :=
  ∃ r, regs h = some r ∧ b.Matches h.slot.index r

/-- Every handle that is around is bound, and is found in its own slot. -/
structure BoundTo [Build] (regs : Registrations) (k : Kernel) : Prop where
  held : k.Held (Bound regs k.sched.bindings) k.sched.bindings
  slots : ∀ i h, k.sched.taskHandles i = some h →
    h.slot.index = i ∧ Bound regs k.sched.bindings h

/-- The bindings after a registration bind the task. -/
theorem bound_self (b : Bindings) (h : TaskHandle) (r : Registration)
    (hkernel : r.task.userWindow = none →
      b.taskCapTables h.slot.index = none ∧ b.taskUserWindows h.slot.index = none) :
    (r.task.bound b h r.space).Matches h.slot.index r := by
  obtain ⟨space, task⟩ := r
  cases task with
  | kernel entry stackTop =>
    obtain ⟨htable, hwindow⟩ := hkernel rfl
    exact ⟨htable, hwindow, fun hcon => absurd rfl hcon⟩
  | user userEntry userSp kernelStackTop capTable =>
    refine ⟨?_, ?_, fun _ => ?_⟩
    · exact Function.update_self ..
    · exact Function.update_self ..
    · exact Function.update_self ..

/-- A registration does not touch another slot. -/
theorem matches_other {r' : Registration} (hi : i ≠ h.slot.index) (hmatch : b.Matches i r') :
    (r.task.bound b h r.space).Matches i r' := by
  obtain ⟨htable, hwindow, hspace⟩ := hmatch
  obtain ⟨space, task⟩ := r
  cases task with
  | kernel entry stackTop =>
    refine ⟨htable, hwindow, fun huser => ?_⟩
    exact (Function.update_of_ne hi _ _).trans (hspace huser)
  | user userEntry userSp kernelStackTop capTable =>
    refine ⟨?_, ?_, fun huser => ?_⟩
    · exact (Function.update_of_ne hi _ _).trans htable
    · exact (Function.update_of_ne hi _ _).trans hwindow
    · exact (Function.update_of_ne hi _ _).trans (hspace huser)

/-- What a registration has to leave to another task of its slot. -/
structure Spares (b : Bindings) (h : TaskHandle) (r : Registration) : Prop where
  kernel : r.task.userWindow = none →
    b.taskCapTables h.slot.index = none ∧ b.taskUserWindows h.slot.index = none
  user : r.task.userWindow ≠ none → b.Matches h.slot.index r

/-- A task that the registration spares keeps its bindings in the shared slot. -/
theorem matches_spared {r' : Registration} (hspares : Spares b h r)
    (hmatch : b.Matches h.slot.index r') :
    (r.task.bound b h r.space).Matches h.slot.index r' := by
  by_cases huser : r.task.userWindow = none
  · obtain ⟨htable, hwindow⟩ := hspares.kernel huser
    obtain ⟨space, task⟩ := r
    cases task with
    | user => cases huser
    | kernel entry stackTop =>
      refine ⟨hmatch.capTable, hmatch.userWindow, fun hcon => absurd ?_ hcon⟩
      exact hmatch.userWindow.symm.trans hwindow
  · have hown := hspares.user huser
    have hself := bound_self b h r fun hcon => absurd hcon huser
    refine ⟨hself.capTable.trans ?_, hself.userWindow.trans ?_, fun huser' => ?_⟩
    · exact hown.capTable.symm.trans hmatch.capTable
    · exact hown.userWindow.symm.trans hmatch.userWindow
    · exact (hself.space huser).trans ((hown.space huser).symm.trans (hmatch.space huser'))

/-- Before a registration: what it has to leave to itself and to the other tasks. -/
structure Admits (s : Scheduler) (h : TaskHandle) (r : Registration) : Prop where
  own : r.task.userWindow = none →
    s.taskCapTables h.slot.index = none ∧ s.taskUserWindows h.slot.index = none
  others : ∀ h', s.Scheduled h' → h' ≠ h → h'.slot.index = h.slot.index → Spares s.bindings h r

theorem admits_of_fresh {op : KernelOp} {s : Scheduler} (hfresh : op.Fresh s)
    (hop : op.registers = some (h, r)) (hroom : op.HasRoom s) : Admits s h r := by
  have hcond := hfresh h r hop hroom
  obtain ⟨space, task⟩ := r
  cases task with
  | kernel entry stackTop =>
    exact ⟨fun _ => hcond, fun h' _ _ _ => ⟨fun _ => hcond, fun hcon => absurd rfl hcon⟩⟩
  | user userEntry userSp kernelStackTop capTable =>
    refine ⟨fun hcon => (nomatch hcon), fun h' hsched hne hslot => ?_⟩
    exact ⟨fun hcon => (nomatch hcon), fun _ => hcond h' hsched hne hslot⟩

/-- The new task is bound. -/
theorem bound_registered {s : Scheduler} (hadmits : Admits s h r) :
    Bound (Function.update regs h (some r)) (r.task.bound s.bindings h r.space) h :=
  ⟨r, Function.update_self .., bound_self _ _ _ hadmits.own⟩

/-- The other tasks stay bound. -/
theorem bound_kept {s : Scheduler} (hbound : Bound regs s.bindings h')
    (hspares : h' ≠ h → h'.slot.index = h.slot.index → Spares s.bindings h r)
    (hadmits : Admits s h r) :
    Bound (Function.update regs h (some r)) (r.task.bound s.bindings h r.space) h' := by
  by_cases hh : h' = h
  · rw [hh]
    exact bound_registered hadmits
  obtain ⟨r', hr', hmatch⟩ := hbound
  refine ⟨r', (Function.update_of_ne hh _ _).trans hr', ?_⟩
  by_cases hslot : h'.slot.index = h.slot.index
  · rw [hslot] at hmatch ⊢
    exact matches_spared (hspares hh hslot) hmatch
  · exact matches_other hslot hmatch

/-- The handle cells after a registration. -/
theorem bound_taskHandles (b : Bindings) (h : TaskHandle) (r : Registration) :
    (r.task.bound b h r.space).taskHandles =
      Function.update b.taskHandles h.slot.index (some h) := by
  obtain ⟨space, task⟩ := r
  cases task <;> rfl

section Build

variable [Build]

/-- The kernel after a registration that wrote the bindings and holds no new handle but
the one registered. -/
theorem BoundTo.registered {s' : Scheduler} (hb : BoundTo regs k) (hadmits : Admits k.sched h r)
    (hheld : s'.Held (fun h' => h' = h ∨ k.sched.Scheduled h')
      (r.task.bound k.sched.bindings h r.space)) :
    BoundTo (Function.update regs h (some r)) { k with sched := s' } := by
  have hscheduled : ∀ h', k.sched.Scheduled h' → Bound regs k.sched.bindings h' := by
    intro h' hsched
    cases hsched with
    | current hc => exact hb.held.sched.current h' hc
    | idle hi => exact hb.held.sched.idle h' hi
    | ready q hq hmem =>
      obtain ⟨l, hl, hall⟩ := hb.held.sched.ready
      rw [hq.unique hl] at hmem
      exact hall h' hmem
  have hgood : ∀ h', h' = h ∨ k.sched.Scheduled h' → Bound (Function.update regs h (some r))
      (r.task.bound k.sched.bindings h r.space) h' := by
    intro h' hh'
    rcases hh' with rfl | hsched
    · exact bound_registered hadmits
    · exact bound_kept (hscheduled h' hsched) (hadmits.others h' hsched) hadmits
  have hbindings : s'.bindings = r.task.bound k.sched.bindings h r.space := hheld.bindings
  refine ⟨⟨⟨rfl, ?_, ?_, ?_, hheld.awake⟩, hb.held.ipc⟩, fun i h' hcell => ?_⟩
  · obtain ⟨l, hl, hall⟩ := hheld.ready
    refine ⟨l, hl, fun h' hmem => ?_⟩
    rw [hbindings]
    exact hgood h' (hall h' hmem)
  · intro h' hc
    rw [hbindings]
    exact hgood h' (hheld.current h' hc)
  · intro h' hi
    rw [hbindings]
    exact hgood h' (hheld.idle h' hi)
  · have hcells : s'.taskHandles = Function.update k.sched.taskHandles h.slot.index (some h) :=
      (congrArg Bindings.taskHandles hbindings).trans (bound_taskHandles _ _ _)
    rw [hcells] at hcell
    rw [hbindings]
    by_cases hi : i = h.slot.index
    · subst hi
      rw [Function.update_self] at hcell
      cases hcell
      exact ⟨rfl, bound_registered hadmits⟩
    · rw [Function.update_of_ne hi] at hcell
      obtain ⟨hslot, hbound⟩ := hb.slots i h' hcell
      refine ⟨hslot, bound_kept hbound (fun _ hsame => ?_) hadmits⟩
      exact absurd (hslot.symm.trans hsame) hi

omit [Build] in
theorem registerIdle_noErr {space : AddressSpaceHandle} {entry stackTop : ℕ} :
    Prog.Triple (fun _ => True) (registerIdle h space entry stackTop) (fun _ _ => True)
      fun _ _ => False := by
  unfold registerIdle
  refine Prog.Triple.get_bind fun s _ => Prog.Triple.ite (fun _ => ?_) fun _ => Prog.Triple.panic
  have hwrite : ∀ {α : Type} {cells : Scheduler → Index → α} {store} {f : α → α},
      Prog.Triple (fun _ => True) (writeCell taskArenaCapacity cells store h.slot.index f)
        (fun _ _ => True) fun (_ : SchedError) _ => False := writeCell_triple fun _ _ => trivial
  refine Prog.Triple.bind (hwrite.pre fun _ _ => trivial) fun _ => ?_
  refine Prog.Triple.bind hwrite fun _ => Prog.Triple.bind hwrite fun _ => ?_
  exact Prog.Triple.bind hwrite fun _ => Prog.Triple.modify fun _ _ => trivial

/-- A task added to the queue. -/
theorem BoundTo.add (hb : BoundTo regs k) (task : NewTask) (space : AddressSpaceHandle)
    (hadmits : k.sched.ready.len < taskArenaCapacity → Admits k.sched h ⟨space, task⟩) :
    Prog.Triple (fun t => t = k) (onSched (task.add h space))
      (fun _ => BoundTo (Function.update regs h (some ⟨space, task⟩))) fun _ => BoundTo regs := by
  intro t ht
  subst ht
  obtain ⟨q, hq, -⟩ := hb.held.sched.ready
  rcases add_cases hq task h space with ⟨-, p, hrun⟩ | ⟨-, ⟨-, hrun⟩ | ⟨hroom, s', hrun, hadded⟩⟩
  · have hpanic : (onSched (task.add h space)).run t = .panic p := Prog.zoom_panic hrun
    rw [hpanic]
    exact ⟨fun _ _ hend => (nomatch hend), fun _ _ hend => (nomatch hend)⟩
  · have herr : (onSched (task.add h space)).run t =
        .err .queueFull { t with sched := t.sched.seeded h task.context } := Prog.zoom_err hrun
    rw [herr]
    refine ⟨fun _ _ hend => (nomatch hend), fun e k' hend => ?_⟩
    cases hend
    obtain ⟨⟨-, hready, hcurrent, hidle, hawake⟩, hipc⟩ := hb.held
    exact ⟨⟨⟨rfl, hready, hcurrent, hidle, hawake⟩, hipc⟩, hb.slots⟩
  · rw [onSched_ok hrun]
    refine ⟨fun _ k' hend => ?_, fun _ _ hend => (nomatch hend)⟩
    cases hend
    have hlen : t.sched.ready.len < taskArenaCapacity := by
      rw [hq.len_eq]
      exact hroom
    refine hb.registered (hadmits hlen) ⟨hadded.bindings, ⟨_, hadded.ready, ?_⟩, ?_, ?_, ?_⟩
    · intro h' hmem
      rcases List.mem_append.mp hmem with hmem | hmem
      · exact Or.inr (.ready q hq hmem)
      · exact Or.inl (List.mem_singleton.mp hmem)
    · intro h' hc
      exact Or.inr (.current (hadded.current.symm.trans hc))
    · intro h' hi
      exact Or.inr (.idle (hadded.idle.symm.trans hi))
    · intro hnone
      rw [hadded.taskStates]
      exact not_blocked_ready (hb.held.sched.awake (hadded.current.symm.trans hnone)) _

/-- The idle task. -/
theorem BoundTo.registerIdle (hb : BoundTo regs k) {space : AddressSpaceHandle}
    {entry stackTop : ℕ} (hadmits : Admits k.sched h ⟨space, .kernel entry stackTop⟩) :
    Prog.Triple (fun t => t = k) (onSched (registerIdle h space entry stackTop))
      (fun _ => BoundTo (Function.update regs h (some ⟨space, .kernel entry stackTop⟩)))
      fun _ => BoundTo regs := by
  intro t ht
  subst ht
  obtain ⟨q, hq, -⟩ := hb.held.sched.ready
  have hheld : t.sched.Held (fun h' => h' = h ∨ t.sched.Scheduled h') t.sched.bindings :=
    ⟨rfl, ⟨q, hq, fun h' hmem => Or.inr (.ready q hq hmem)⟩, fun h' hc => Or.inr (.current hc),
      fun h' hi => Or.inr (.idle hi), hb.held.sched.awake⟩
  have hsucceeds : Prog.Triple
      (Scheduler.Held (fun h' => h' = h ∨ t.sched.Scheduled h') t.sched.bindings)
      (Scheduler.registerIdle h space entry stackTop) _ _ := registerIdle_held (Or.inl rfl)
  have hnoErr : Prog.Triple _ (Scheduler.registerIdle h space entry stackTop) _ _ :=
    registerIdle_noErr
  cases hrun : (Scheduler.registerIdle h space entry stackTop).run t.sched with
  | ok a s' =>
    rw [onSched_ok hrun]
    refine ⟨fun _ k' hend => ?_, fun _ _ hend => (nomatch hend)⟩
    cases hend
    exact hb.registered hadmits ((hsucceeds t.sched hheld).1 a s' hrun)
  | err e s' => exact ((hnoErr t.sched trivial).2 e s' hrun).elim
  | panic p =>
    have hpanic : (onSched (Scheduler.registerIdle h space entry stackTop)).run t = .panic p :=
      Prog.zoom_panic hrun
    rw [hpanic]
    exact ⟨fun _ _ hend => (nomatch hend), fun _ _ hend => (nomatch hend)⟩

/-- A call that registers no task. -/
theorem BoundTo.of_held {k' : Kernel} (hb : BoundTo regs k)
    (hheld : k'.Held (Bound regs k.sched.bindings) k.sched.bindings) : BoundTo regs k' := by
  have hsame : k'.sched.bindings = k.sched.bindings := hheld.sched.bindings
  refine ⟨?_, fun i h hcell => ?_⟩
  · rw [hsame]
    exact hheld
  · rw [hsame]
    exact hb.slots i h ((congrFun (congrArg Bindings.taskHandles hsame) i).symm.trans hcell)

/-- Every call records what it registers, and leaves what is scheduled bound. -/
theorem exec_bound (hb : BoundTo regs k) {op : KernelOp} (hfresh : op.Fresh k.sched) :
    Prog.Triple (fun t => t = k) (exec op) (fun _ => BoundTo (op.recorded regs))
      fun _ => BoundTo regs := by
  have hquiet : op.registers = none → op.registration = none →
      bound op k.sched.bindings = k.sched.bindings →
      Prog.Triple (fun t => t = k) (exec op) (fun _ => BoundTo (op.recorded regs))
        fun _ => BoundTo regs := by
    intro hop hreg hbound
    have hexec : Prog.Triple (Held (Bound regs k.sched.bindings) k.sched.bindings) (exec op)
        (fun _ => Held (Bound regs k.sched.bindings) (bound op k.sched.bindings))
        fun _ => Held (Bound regs k.sched.bindings) k.sched.bindings := by
      refine exec_held (fun i h hcell => (hb.slots i h hcell).2) fun h space hcon => ?_
      rw [hreg] at hcon
      cases hcon
    rw [hbound] at hexec
    refine (hexec.post (fun _ _ hk => ?_) fun _ _ hk => hb.of_held hk).pre fun t ht => ?_
    · unfold KernelOp.recorded
      rw [hop]
      exact hb.of_held hk
    · rw [ht]
      exact hb.held
  cases op with
  | addTask h space entry stackTop =>
    exact (hb.add (.kernel entry stackTop) space fun hroom => admits_of_fresh hfresh rfl hroom).bind
      fun _ => Prog.Triple.pure fun _ hk => hk
  | addUserTask h space userEntry userSp kernelStackTop capTable =>
    exact (hb.add (.user userEntry userSp kernelStackTop capTable) space
      fun hroom => admits_of_fresh hfresh rfl hroom).bind fun _ => Prog.Triple.pure fun _ hk => hk
  | registerIdle h space entry stackTop =>
    exact (hb.registerIdle (admits_of_fresh hfresh rfl trivial)).bind
      fun _ => Prog.Triple.pure fun _ hk => hk
  | start => exact hquiet rfl rfl rfl
  | resume => exact hquiet rfl rfl rfl
  | yieldNow => exact hquiet rfl rfl rfl
  | sendAndYield => exact hquiet rfl rfl rfl
  | recvAndYield => exact hquiet rfl rfl rfl
  | taskExit => exact hquiet rfl rfl rfl

end Build

end Kernel

/-! ## Syscalls -/

namespace System

variable {AS α : Type} [Build] {good : TaskHandle → Prop} {b : Bindings} {P : Kernel → Prop}
  {Q : α → Kernel → Prop} {E : SchedError → Kernel → Prop}

omit [Build] in
theorem onKernel_triple {m : Kernel.KernelM α} (hm : Prog.Triple P m Q E) :
    Prog.Triple (fun s : System AS => P s.kernel) (onKernel m) (fun a s => Q a s.kernel)
      fun err s => E err s.kernel :=
  hm.zoom (fun _ hs => hs) (fun _ _ _ _ hk => hk) fun _ _ _ _ hk => hk

theorem reschedule_held :
    (reschedule : SystemM AS _).Preserves fun s => s.kernel.Held good b := by
  unfold reschedule
  refine Prog.Triple.bind (Q := fun _ s => s.kernel.Held good b)
    ((onKernel_triple Kernel.yieldNow_held).attempt (fun _ _ hs => hs) fun _ _ hs => hs)
    fun res => ?_
  refine debugAssert_triple.bind fun _ => ?_
  split
  · exact Prog.Triple.pure fun _ hs => hs
  · exact Prog.Triple.pure fun _ hs => hs

theorem terminate_held :
    (terminate : SystemM AS _).Preserves fun s => s.kernel.Held good b := by
  unfold terminate
  refine Prog.Triple.bind (Q := fun _ s => s.kernel.Held good b)
    (Prog.Triple.modify fun _ hs => hs) fun _ => ?_
  exact (onKernel_triple Kernel.start_held).bind fun _ => Prog.Triple.pure fun _ hs => hs

variable [Mmu AS] {args : SyscallArgs}

/-- The dispatch of a syscall does IPC only. -/
theorem dispatch_held {s : System AS} {ctx : SyscallContext AS} {effect : SyscallEffect}
    (hs : s.kernel.Held good b)
    (hrun : (dispatch args).run (context s.binding s) = .ok effect ctx) :
    (s.endDispatch s.binding ctx).kernel.Held good b := by
  have hwf : (context s.binding s).table.WellFormed := hs.ipc.tables s.binding.callerTable
  have hend := dispatch_end hwf hrun
  have hkernel := endDispatch_kernel s.binding ctx s
  rw [hkernel]
  generalize ctx.toIpcCall = call at hend
  refine ⟨hs.sched, ?_⟩
  have hquiet : (s.kernel.withCall s.binding.callerTable
      (s.kernel.ipc.call s.binding.callerTable)).ipc.Sound := by
    rw [Kernel.withCall, IpcSystem.endCall_call]
    exact hs.ipc
  cases hend with
  | quiet => exact hquiet
  | refused hq => exact Kernel.sound_refused hs.ipc hq
  | sent _ hend => exact Kernel.sound_sent hs.ipc hend
  | received _ hend => exact Kernel.sound_received hs.ipc hend
  | yields => exact hquiet
  | exits => exact hquiet

theorem syscallEntry_held :
    (syscallEntry args : SystemM AS _).Preserves fun s => s.kernel.Held good b := by
  unfold syscallEntry
  refine Prog.Triple.get_bind fun s hs => ?_
  refine Prog.Triple.bind (Q := fun _ s => s.kernel.Held good b) ?_ fun effect => ?_
  · rintro t rfl
    cases hrun : (dispatch args).run (context t.binding t) with
    | ok effect ctx =>
      rw [Prog.zoom_ok hrun]
      refine ⟨fun a t' hend => ?_, fun _ _ hend => (nomatch hend)⟩
      cases hend
      exact dispatch_held hs hrun
    | err e => cases e
    | panic p =>
      rw [Prog.zoom_panic hrun]
      exact ⟨fun _ _ hend => (nomatch hend), fun _ _ hend => (nomatch hend)⟩
  · cases effect with
    | resume => exact Prog.Triple.pure fun _ hs => hs
    | reschedule => exact reschedule_held
    | terminate => exact terminate_held

end System

/-! ## The system with its task objects -/

structure TaskSystem (AS : Type) where
  system : System AS
  tasks : TaskArena

inductive TaskSystemError
  | sched (err : SchedError)
  | obj (err : ObjError)
  deriving DecidableEq, Repr

inductive TaskSystemOp (AS : Type)
  | system (op : SystemOp AS)
  | createTask (task : Task)
  | destroyTask (handle : TaskHandle)

inductive TaskSystemReply
  | system (reply : SystemReply)
  | created (handle : TaskHandle)
  | destroyed (task : Task)
  deriving DecidableEq, Repr

namespace TaskSystem

abbrev TaskSystemM (AS : Type) := Prog (TaskSystem AS) TaskSystemError

variable {AS α : Type}

def onSystem (m : System.SystemM AS α) : TaskSystemM AS α :=
  Prog.zoom system (fun system s => { s with system }) .sched m

def onTasks (m : Prog TaskArena ObjError α) : TaskSystemM AS α :=
  Prog.zoom tasks (fun tasks s => { s with tasks }) .obj m

def exec [Build] [Mmu AS] : TaskSystemOp AS → TaskSystemM AS TaskSystemReply
  | .system op => do return .system (← onSystem (System.exec op))
  | .createTask task => do return .created (← onTasks (createTask task))
  | .destroyTask handle => do return .destroyed (← onTasks (destroyTask handle))

end TaskSystem

namespace TaskSystemOp

variable {AS : Type}

/-- The call of the scheduler that the operation is. -/
def kernelOp : TaskSystemOp AS → Option KernelOp
  | .system (.kernel op) => some op
  | _ => none

/-- The registrations once the operation has returned. -/
def recorded (op : TaskSystemOp AS) (regs : Registrations) : Registrations :=
  match op.kernelOp with
  | some op => op.recorded regs
  | none => regs

/-- What a registration needs of the state before it. -/
def Fresh (op : TaskSystemOp AS) (s : TaskSystem AS) : Prop :=
  ∀ call, op.kernelOp = some call → call.Fresh s.system.kernel.sched

end TaskSystemOp

/-- One operation of a run, with the states before and after it. -/
structure TaskSystemEvent (AS : Type) where
  before : TaskSystem AS
  op : TaskSystemOp AS
  reply : Except TaskSystemError TaskSystemReply
  after : TaskSystem AS

/-- An operation that returned, by any caller. -/
structure TaskSystemCall {AS : Type} [Build] [Mmu AS] (s : TaskSystem AS) (ev : TaskSystemEvent AS)
    (s' : TaskSystem AS) : Prop where
  before : ev.before = s
  after : ev.after = s'
  exec : (TaskSystem.exec ev.op).run s = .returned ev.reply s'

/-- What the event adds to the registrations: those that succeeded. -/
def TaskSystemEvent.record {AS : Type} (regs : Registrations) (ev : TaskSystemEvent AS) :
    Registrations :=
  match ev.reply with
  | .ok _ => ev.op.recorded regs
  | .error _ => regs

/-- The last registration of every handle in a run. -/
def registrations {AS : Type} (evs : List (TaskSystemEvent AS)) : Registrations :=
  evs.foldl TaskSystemEvent.record fun _ => none

namespace TaskSystem

open Kernel

variable {AS : Type} [Build] [Mmu AS] {s s' : TaskSystem AS} {regs : Registrations}
  {ev : TaskSystemEvent AS} {evs : List (TaskSystemEvent AS)} {op : TaskSystemOp AS}

/-- The scheduled kernel is bound to the registrations. -/
def BoundTo (regs : Registrations) (s : TaskSystem AS) : Prop := s.system.kernel.BoundTo regs

omit [Build] [Mmu AS] in
/-- The task arena is no part of the system below. -/
theorem onTasks_preserves {α : Type} {m : Prog TaskArena ObjError α} (I : System AS → Prop) :
    (onTasks m : TaskSystemM AS α).Preserves fun s => I s.system :=
  Prog.Triple.any.zoom (P := fun _ => True) (fun _ _ => trivial) (fun _ _ _ hs _ => hs)
    fun _ _ _ hs _ => hs

/-- The triple of one operation from a given state. -/
theorem exec_bound (hb : BoundTo regs s) (hfresh : op.Fresh s) :
    Prog.Triple (fun t => t = s) (exec op) (fun _ => BoundTo (op.recorded regs))
      fun _ => BoundTo regs := by
  have hheld : s.system.kernel.Held (Bound regs s.system.kernel.sched.bindings)
      s.system.kernel.sched.bindings := Kernel.BoundTo.held hb
  have hsystem : ∀ {m : System.SystemM AS SystemReply} {regs' : Registrations},
      Prog.Triple (fun t => t = s.system) m (fun _ t => t.kernel.BoundTo regs')
        (fun _ t => t.kernel.BoundTo regs) →
      Prog.Triple (fun t => t = s)
        (do return TaskSystemReply.system (← onSystem m) : TaskSystemM AS TaskSystemReply)
        (fun _ => BoundTo regs') fun _ => BoundTo regs := by
    intro m regs' hm
    refine Prog.Triple.bind (Q := fun _ => BoundTo regs') ?_
      fun _ => Prog.Triple.pure fun _ hs => hs
    refine hm.zoom (fun t ht => ?_) (fun _ _ _ _ hs => hs) fun _ _ _ _ hs => hs
    rw [ht]
  cases op with
  | createTask task =>
    refine Prog.Triple.pre (P := BoundTo regs) ?_ fun t ht => ht ▸ hb
    exact (onTasks_preserves fun t => t.kernel.BoundTo regs).bind fun _ =>
      Prog.Triple.pure fun _ hs => hs
  | destroyTask handle =>
    refine Prog.Triple.pre (P := BoundTo regs) ?_ fun t ht => ht ▸ hb
    exact (onTasks_preserves fun t => t.kernel.BoundTo regs).bind fun _ =>
      Prog.Triple.pure fun _ hs => hs
  | system op =>
    refine hsystem ?_
    cases op with
    | kernel op =>
      have hexec : Prog.Triple (fun t : System AS => t.kernel = s.system.kernel)
          (System.onKernel (Kernel.exec op)) (fun _ t => t.kernel.BoundTo (op.recorded regs))
          fun _ t => t.kernel.BoundTo regs :=
        System.onKernel_triple (Kernel.exec_bound hb (hfresh op rfl))
      refine Prog.Triple.pre (P := fun t => t.kernel = s.system.kernel) ?_ fun t ht => ht ▸ rfl
      exact hexec.bind fun _ => Prog.Triple.pure fun _ hs => hs
    | syscall args =>
      have hentry : (System.syscallEntry args : System.SystemM AS _).Preserves fun t =>
          t.kernel.Held (Bound regs s.system.kernel.sched.bindings)
            s.system.kernel.sched.bindings := System.syscallEntry_held
      have hbound := hentry.post (fun _ _ ht => Kernel.BoundTo.of_held hb ht)
        fun _ _ ht => Kernel.BoundTo.of_held hb ht
      refine Prog.Triple.bind (hbound.pre fun t (ht : t = s.system) => ?_)
        fun _ => Prog.Triple.pure fun _ hs => hs
      rw [ht]
      exact hheld
    | store memory asArena =>
      refine Prog.Triple.bind (Q := fun _ t => t.kernel.BoundTo regs)
        (Prog.Triple.modify fun t ht => ?_) fun _ => Prog.Triple.pure fun _ hs => hs
      rw [ht]
      exact hb

/-- A step whose registration is fresh keeps what is scheduled bound. -/
theorem BoundTo.step (hb : BoundTo regs s) (hfresh : ev.op.Fresh ev.before)
    (hcall : TaskSystemCall s ev s') : BoundTo (ev.record regs) s' := by
  obtain ⟨before, op, reply, after⟩ := ev
  obtain ⟨rfl, rfl, hexec⟩ := hcall
  obtain ⟨hok, herr⟩ := exec_bound hb hfresh before rfl
  cases reply with
  | ok reply => exact hok reply after hexec
  | error err => exact herr err after hexec

omit [Build] [Mmu AS] in
theorem registrations_snoc (evs : List (TaskSystemEvent AS)) (ev : TaskSystemEvent AS) :
    registrations (evs ++ [ev]) = ev.record (registrations evs) := by
  unfold registrations
  rw [List.foldl_append]
  rfl

theorem boundTo_of_run (hs : BoundTo (fun _ => none) s) (hrun : Run TaskSystemCall s evs s')
    (hfresh : ∀ ev ∈ evs, ev.op.Fresh ev.before) : BoundTo (registrations evs) s' := by
  refine Run.history (I := fun es t => BoundTo (registrations es) t) hs ?_
    (hrun.with_events hfresh)
  intro es t ev t' hb hstep
  rw [registrations_snoc]
  exact BoundTo.step hb hstep.1 hstep.2

omit [Mmu AS] in
theorem boot_boundTo {ipc : IpcSystem TablePtr} (hsound : ipc.Sound)
    (hboot : s.system.kernel = boot ipc) : BoundTo (fun _ => none) s := by
  unfold BoundTo
  rw [hboot]
  exact ⟨boot_held hsound, fun i h hcell => (nomatch hcell)⟩

omit [Build] [Mmu AS] in
/-- The context of a syscall comes from one registration. -/
theorem binding_of_bound {s : System AS} {h : TaskHandle} {r : Registration}
    (hc : s.kernel.sched.current = some h)
    (hmatch : s.kernel.sched.bindings.Matches h.slot.index r)
    (hcomplete : s.binding.hasCurrentTask = true) :
    ∃ userEntry userSp kernelStackTop capTable asp,
      r.task = .user userEntry userSp kernelStackTop capTable ∧
      getAddressSpace s.asArena r.space = some asp ∧
      s.binding = ⟨capTable, ⟨userEntry, userSp - userEntry⟩, asp.inner, true⟩ := by
  have htable : s.kernel.sched.currentUserTable = r.task.capTable := by
    unfold currentUserTable ofCurrent
    rw [hc]
    exact hmatch.capTable
  have hwindow : s.kernel.sched.currentUserWindow = r.task.userWindow := by
    unfold currentUserWindow ofCurrent
    rw [hc]
    exact hmatch.userWindow
  obtain ⟨space, task⟩ := r
  cases task with
  | kernel entry stackTop =>
    unfold System.binding at hcomplete
    rw [htable] at hcomplete
    cases hcomplete
  | user userEntry userSp kernelStackTop capTable =>
    have hspace : s.kernel.sched.currentAddressSpaceHandle = some space := by
      unfold currentAddressSpaceHandle ofCurrent
      rw [hc]
      exact hmatch.space nofun
    unfold System.binding at hcomplete ⊢
    rw [htable, hwindow, hspace] at hcomplete ⊢
    unfold NewTask.capTable NewTask.userWindow at hcomplete ⊢
    dsimp only [Option.bind] at hcomplete ⊢
    by_cases hnull : capTable ≠ 0
    swap
    · rw [if_neg hnull] at hcomplete
      cases hcomplete
    rw [if_pos hnull] at hcomplete ⊢
    cases hasp : getAddressSpace s.asArena space with
    | none =>
      rw [hasp] at hcomplete
      cases hcomplete
    | some asp => exact ⟨userEntry, userSp, kernelStackTop, capTable, asp, rfl, rfl, rfl⟩

/-! ## A slot that is used twice -/

/-- The event of an operation, unless it panics. -/
def event (s : TaskSystem AS) (op : TaskSystemOp AS) : Option (TaskSystemEvent AS) :=
  match (exec op).run s with
  | .ok reply s' => some ⟨s, op, .ok reply, s'⟩
  | .err err s' => some ⟨s, op, .error err, s'⟩
  | .panic _ => none

theorem call_of_event (s : TaskSystem AS) (op : TaskSystemOp AS) (ev : TaskSystemEvent AS)
    (hev : s.event op = some ev) : TaskSystemCall s ev ev.after := by
  unfold event at hev
  cases hr : (exec op).run s with
  | ok reply s' =>
    rw [hr] at hev
    cases hev
    exact ⟨rfl, rfl, hr⟩
  | err err s' =>
    rw [hr] at hev
    cases hev
    exact ⟨rfl, rfl, hr⟩
  | panic p =>
    rw [hr] at hev
    cases hev

omit [Build] [Mmu AS] in
/-- The board before the first task. -/
def bare : TaskSystem Unit := ⟨System.board (boot IpcSystem.boot), Arena.new⟩

/-- A registration while no other task is ready: the slot has no bindings, or is not that
of the running task. -/
def Alone (s : Scheduler) : Option (TaskHandle × Registration) → Prop
  | some (h, ⟨_, .kernel ..⟩) =>
    s.taskCapTables h.slot.index = none ∧ s.taskUserWindows h.slot.index = none
  | some (h, ⟨_, .user ..⟩) =>
    s.ready.len = 0 ∧ s.idle = none ∧ s.current.map (·.slot.index) ≠ some h.slot.index
  | none => True

instance (s : Scheduler) : ∀ registers, Decidable (Alone s registers)
  | some (_, ⟨_, .kernel ..⟩) => inferInstanceAs (Decidable (_ ∧ _))
  | some (_, ⟨_, .user ..⟩) => inferInstanceAs (Decidable (_ ∧ _ ∧ _))
  | none => inferInstanceAs (Decidable True)

omit [Build] [Mmu AS] in
theorem Alone.fresh {s : TaskSystem AS}
    (halone : Alone s.system.kernel.sched (op.kernelOp.bind KernelOp.registers)) :
    op.Fresh s := by
  intro call hop h r hregisters _
  rw [hop, Option.bind_some, hregisters] at halone
  obtain ⟨space, task⟩ := r
  cases task with
  | kernel entry stackTop => exact halone
  | user userEntry userSp kernelStackTop capTable =>
    obtain ⟨hlen, hidle, hcurrent⟩ := halone
    intro h' hsched _ hslot
    cases hsched with
    | current hc =>
      rw [hc, Option.map_some, hslot] at hcurrent
      exact absurd rfl hcurrent
    | ready q hq hmem =>
      rw [hq.len_eq, List.length_eq_zero_iff] at hlen
      rw [hlen] at hmem
      cases hmem
    | idle hi =>
      rw [hidle] at hi
      cases hi

omit [Build] [Mmu AS] in
/-- Two tasks are registered, the first exits and is destroyed, and a third is created in
its slot, registered and dispatched. -/
def reuse (first third : KernelOp) : List (TaskSystemOp Unit) :=
  [.createTask ⟨0, ⟨⟨0, 0⟩⟩⟩, .createTask ⟨1, ⟨⟨0, 0⟩⟩⟩, .system (.kernel first),
    .system (.kernel (.addTask ⟨⟨1, 0⟩⟩ ⟨⟨0, 0⟩⟩ 4096 8192)), .system (.kernel .start),
    .system (.kernel .resume), .system (.kernel .taskExit), .system (.kernel .resume),
    .destroyTask ⟨⟨0, 0⟩⟩, .createTask ⟨2, ⟨⟨0, 0⟩⟩⟩, .system (.kernel third),
    .system (.kernel .yieldNow)]

/-- In every run whose registrations are all fresh, the running task was registered, and
its table and its window are those of its own last registration: none for a kernel task.
A context that is accepted at the syscall entry is that of one user registration. -/
theorem bindings_of_run {setup : List (IpcSystem.Event TablePtr)} {ipc : IpcSystem TablePtr}
    (hsetup : Run IpcSystem.Step IpcSystem.boot setup ipc) (hdrained : ∀ ev ∈ setup, Drained ev)
    (hboot : s.system.kernel = boot ipc) (hrun : Run TaskSystemCall s evs s')
    (hfresh : ∀ ev ∈ evs, ev.op.Fresh ev.before) {h : TaskHandle}
    (hc : s'.system.kernel.sched.current = some h) :
    ∃ r, registrations evs h = some r ∧
      s'.system.kernel.sched.currentUserTable = r.task.capTable ∧
      s'.system.kernel.sched.currentUserWindow = r.task.userWindow ∧
      (s'.system.binding.hasCurrentTask = true →
        ∃ userEntry userSp kernelStackTop capTable asp,
          r.task = .user userEntry userSp kernelStackTop capTable ∧
          getAddressSpace s'.system.asArena r.space = some asp ∧
          s'.system.binding = ⟨capTable, ⟨userEntry, userSp - userEntry⟩, asp.inner, true⟩) := by
  have hb := boundTo_of_run (boot_boundTo (boot_sound.run hsetup hdrained) hboot) hrun hfresh
  obtain ⟨r, hr, hmatch⟩ := (Kernel.BoundTo.held hb).sched.current h hc
  refine ⟨r, hr, ?_, ?_, binding_of_bound hc hmatch⟩
  · unfold currentUserTable ofCurrent
    rw [hc]
    exact hmatch.capTable
  · unfold currentUserWindow ofCurrent
    rw [hc]
    exact hmatch.userWindow

omit [Build] [Mmu AS] in
/-- The slot of a kernel task that is gone goes to a user task. -/
theorem bindings_of_run_reused : let _ : Build := debugBuild
    let _ : Mmu Unit := System.noMmu
    let ops := reuse (.addTask ⟨⟨0, 0⟩⟩ ⟨⟨0, 0⟩⟩ 4096 16384)
      (.addUserTask ⟨⟨0, 1⟩⟩ ⟨⟨0, 0⟩⟩ 65536 69632 32768 1)
    (Run.afterTrace event TaskSystemEvent.after bare ops).system.binding =
        ⟨1, ⟨65536, 4096⟩, (), true⟩ ∧
      ∃ r, registrations (Run.trace event TaskSystemEvent.after bare ops) ⟨⟨0, 1⟩⟩ = some r ∧
        (Run.afterTrace event TaskSystemEvent.after bare ops).system.kernel.sched.currentUserTable =
          r.task.capTable := by
  intro _ _ ops
  have hbinding : (Run.afterTrace event TaskSystemEvent.after bare ops).system.binding =
      ⟨1, ⟨65536, 4096⟩, (), true⟩ := by
    with_unfolding_all rfl
  have halone : ∀ ev ∈ Run.trace event TaskSystemEvent.after bare ops,
      Alone ev.before.system.kernel.sched (ev.op.kernelOp.bind KernelOp.registers) := by
    decide +kernel
  have hcurrent :
      (Run.afterTrace event TaskSystemEvent.after bare ops).system.kernel.sched.current =
      some ⟨⟨0, 1⟩⟩ := by
    with_unfolding_all rfl
  obtain ⟨r, hr, htable, -, -⟩ := bindings_of_run (.nil _) (fun _ hev => (nomatch hev)) rfl
    (Run.trace_run event TaskSystemEvent.after call_of_event bare ops)
    (fun ev hev => (halone ev hev).fresh) hcurrent
  exact ⟨hbinding, r, hr, htable⟩

omit [Build] [Mmu AS] in
/-- A kernel task in the slot of a user task that is gone runs with its table and its
window, and the syscall entry accepts them. -/
theorem bindings_leftover : ∃ (evs : List (TaskSystemEvent Unit)) (s : TaskSystem Unit)
    (h : TaskHandle) (r : Registration),
    @Run _ _ (@TaskSystemCall Unit debugBuild System.noMmu) bare evs s ∧
    s.system.kernel.sched.current = some h ∧ registrations evs h = some r ∧
    r.task = .kernel 4096 16384 ∧ s.system.kernel.sched.currentUserTable = some 1 ∧
    s.system.kernel.sched.currentUserWindow = some ⟨65536, 4096⟩ ∧
    s.system.binding.hasCurrentTask = true := by
  let _ : Build := debugBuild
  let _ : Mmu Unit := System.noMmu
  let ops := reuse (.addUserTask ⟨⟨0, 0⟩⟩ ⟨⟨0, 0⟩⟩ 65536 69632 32768 1)
    (.addTask ⟨⟨0, 1⟩⟩ ⟨⟨0, 0⟩⟩ 4096 16384)
  refine ⟨_, _, ⟨⟨0, 1⟩⟩, ⟨⟨⟨0, 0⟩⟩, .kernel 4096 16384⟩,
    Run.trace_run event TaskSystemEvent.after call_of_event bare ops, ?_, ?_, rfl, ?_, ?_, ?_⟩
  · with_unfolding_all rfl
  · with_unfolding_all rfl
  · with_unfolding_all rfl
  · with_unfolding_all rfl
  · with_unfolding_all rfl

end TaskSystem

end Tyrne
