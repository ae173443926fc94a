import Tyrne.Sched.Rollback

/-!
# Registering tasks

What a registration does to a scheduler in any state. It seeds the saved context of the
slot before it knows that the queue has room, so a refused registration still overwrites
that context.
-/

namespace Tyrne

open Scheduler IpcSystem

/-- The two kinds of tasks that are added to the ready queue. -/
inductive NewTask
  | kernel (entry stackTop : ℕ)
  | user (userEntry userSp kernelStackTop : ℕ) (capTable : TablePtr)

namespace NewTask

/-- The context that the first dispatch restores. -/
def context : NewTask → TaskContext
  | .kernel entry stackTop => .kernelEntry entry stackTop
  | .user userEntry userSp kernelStackTop _ => .userEntry userEntry userSp kernelStackTop

/-- The bindings once the task is registered. -/
def bound (task : NewTask) (b : Bindings) (h : TaskHandle) (space : AddressSpaceHandle) :
    Bindings :=
  match task with
  | .kernel .. => b.addKernel h space
  | .user userEntry userSp _ capTable =>
    b.addUser h space (if capTable ≠ 0 then some capTable else none)
      ⟨userEntry, userSp - userEntry⟩

variable [Build]

def add (task : NewTask) (h : TaskHandle) (space : AddressSpaceHandle) : SchedM Unit :=
  match task with
  | .kernel entry stackTop => addTask h space entry stackTop
  | .user userEntry userSp kernelStackTop capTable =>
    addUserTask h space userEntry userSp kernelStackTop capTable

/-- The debug assertions of the registration. -/
def Accepted : NewTask → Prop
  | .kernel .. => True
  | .user _ userSp kernelStackTop capTable => Build.debugAssertions →
    (kernelStackTop ≠ 0 ∧ kernelStackTop % 16 = 0) ∧ userSp % 16 = 0 ∧ capTable ≠ 0

end NewTask

/-- The scheduler `s'` is `s` with the task registered in the slot of `h`, which is at the
back of the queue. -/
structure Scheduler.Added (s : Scheduler) (q : List TaskHandle) (task : NewTask) (h : TaskHandle)
    (space : AddressSpaceHandle) (s' : Scheduler) : Prop where
  ready : s'.ready.Represents (q ++ [h])
  taskStates : s'.taskStates = Function.update s.taskStates h.slot.index .ready
  bindings : s'.bindings = task.bound s.bindings h space
  current : s'.current = s.current
  idle : s'.idle = s.idle
  contexts : s'.contexts = Function.update s.contexts h.slot.index task.context

namespace Scheduler

variable [Build] {s s' : Scheduler} {q : List TaskHandle} {h : TaskHandle}
  {space : AddressSpaceHandle} {task : NewTask}

/-- The scheduler after the context of the slot was seeded. -/
def seeded (s : Scheduler) (h : TaskHandle) (context : TaskContext) : Scheduler :=
  { s with contexts := Function.update s.contexts h.slot.index context }

omit [Build] in
theorem tryEnqueue_full (hq : s.ready.Represents q) (hfull : q.length = taskArenaCapacity) :
    (tryEnqueue h).run s = .err .queueFull s :=
  Prog.zoom_err (hq.enqueue_full hfull h)

omit [Build] in
/-- The end of a registration, from the state with the context seeded. -/
theorem enqueue_cases (task : NewTask) {rest : SchedM Unit} (hq : s.ready.Represents q)
    (hrest : ∀ r, r.Represents (q ++ [h]) → ∃ s', rest.run
      { s.seeded h task.context with ready := r } = .ok () s' ∧ s.Added q task h space s') :
    (q.length = taskArenaCapacity ∧ (tryEnqueue h >>= fun _ => rest).run (s.seeded h task.context) =
      .err .queueFull (s.seeded h task.context)) ∨
    q.length < taskArenaCapacity ∧
      ∃ s', (tryEnqueue h >>= fun _ => rest).run (s.seeded h task.context) = .ok () s' ∧
        s.Added q task h space s' := by
  have hq' : (s.seeded h task.context).ready.Represents q := hq
  rcases hq.fits.lt_or_eq with hroom | hfull
  · obtain ⟨r, hr, henq⟩ := tryEnqueue_run hq' hroom h
    obtain ⟨s', hrun, hadded⟩ := hrest r hr
    exact Or.inr ⟨hroom, s', (Prog.bind_ok henq).trans hrun, hadded⟩
  · exact Or.inl ⟨hfull, Prog.bind_err (tryEnqueue_full hq' hfull)⟩

/-- The registration of a user task panics at a failed assertion, or where the rest does. -/
theorem addUserTask_panic {userEntry userSp kernelStackTop : ℕ} {capTable : TablePtr}
    (hrest : (NewTask.user userEntry userSp kernelStackTop capTable).Accepted →
      ∃ p, (setContext h.slot.index (.userEntry userEntry userSp kernelStackTop)).run s =
        .panic p) :
    ∃ p, (addUserTask h space userEntry userSp kernelStackTop capTable).run s = .panic p := by
  unfold addUserTask
  dsimp only
  by_cases hstack : Build.debugAssertions = true → kernelStackTop ≠ 0 ∧ kernelStackTop % 16 = 0
  swap
  · rw [Classical.not_imp] at hstack
    rw [debugAssert_neg hstack.1 hstack.2]
    exact ⟨_, rfl⟩
  rw [debugAssert_of hstack, Prog.pure_bind_run]
  by_cases hsp : Build.debugAssertions = true → userSp % 16 = 0
  swap
  · rw [Classical.not_imp] at hsp
    rw [debugAssert_neg hsp.1 hsp.2]
    exact ⟨_, rfl⟩
  rw [debugAssert_of hsp, Prog.pure_bind_run]
  by_cases htable : Build.debugAssertions = true → capTable ≠ 0
  swap
  · rw [Classical.not_imp] at htable
    rw [debugAssert_neg htable.1 htable.2]
    exact ⟨_, rfl⟩
  rw [debugAssert_of htable, Prog.pure_bind_run]
  obtain ⟨p, hpanic⟩ := hrest fun hbuild => ⟨hstack hbuild, hsp hbuild, htable hbuild⟩
  exact ⟨p, Prog.bind_panic hpanic⟩

/-- A registration panics, finds the queue full when it has already seeded the context, or
adds the task. -/
theorem add_cases (hq : s.ready.Represents q) (task : NewTask) (h : TaskHandle)
    (space : AddressSpaceHandle) :
    (¬ (task.Accepted ∧ h.slot.index.toNat < taskArenaCapacity) ∧
      ∃ p, (task.add h space).run s = .panic p) ∨
    (task.Accepted ∧ h.slot.index.toNat < taskArenaCapacity) ∧
    ((q.length = taskArenaCapacity ∧
      (task.add h space).run s = .err .queueFull (s.seeded h task.context)) ∨
    q.length < taskArenaCapacity ∧
      ∃ s', (task.add h space).run s = .ok () s' ∧ s.Added q task h space s') := by
  by_cases hi : h.slot.index.toNat < taskArenaCapacity
  swap
  · refine Or.inl ⟨fun hcon => hi hcon.2, ?_⟩
    have hcontext : ∀ context, (setContext h.slot.index context).run s = .panic .indexOutOfBounds :=
      fun _ => if_neg hi
    cases task with
    | kernel => exact ⟨_, Prog.bind_panic (hcontext _)⟩
    | user => exact addUserTask_panic (fun _ => ⟨_, hcontext _⟩)
  cases task with
  | kernel entry stackTop =>
    refine Or.inr ⟨⟨trivial, hi⟩, ?_⟩
    unfold NewTask.add addTask
    dsimp only
    rw [Prog.bind_ok (setContext_run hi _)]
    refine enqueue_cases (.kernel entry stackTop) hq fun r hr => ?_
    rw [Prog.bind_ok (setTaskState_run hi _), Prog.bind_ok (setTaskHandle_run hi _)]
    exact ⟨_, setAddressSpaceHandle_run hi _, hr, rfl, rfl, rfl, rfl, rfl⟩
  | user userEntry userSp kernelStackTop capTable =>
    by_cases haccepted : (NewTask.user userEntry userSp kernelStackTop capTable).Accepted
    swap
    · refine Or.inl ⟨fun hcon => haccepted hcon.1, ?_⟩
      exact addUserTask_panic fun hcon => absurd hcon haccepted
    refine Or.inr ⟨⟨haccepted, hi⟩, ?_⟩
    unfold NewTask.add addUserTask
    dsimp only
    rw [debugAssert_of fun hbuild => (haccepted hbuild).1, Prog.pure_bind_run,
      debugAssert_of fun hbuild => (haccepted hbuild).2.1, Prog.pure_bind_run,
      debugAssert_of fun hbuild => (haccepted hbuild).2.2, Prog.pure_bind_run,
      Prog.bind_ok (setContext_run hi _)]
    refine enqueue_cases (.user userEntry userSp kernelStackTop capTable) hq fun r hr => ?_
    rw [Prog.bind_ok (setTaskState_run hi _), Prog.bind_ok (setTaskHandle_run hi _),
      Prog.bind_ok (setAddressSpaceHandle_run hi _), Prog.bind_ok (setCapTable_run hi _)]
    exact ⟨_, setUserWindow_run hi _, hr, rfl, rfl, rfl, rfl, rfl⟩

/-- In any state: a registration that is refused changes nothing, unless the queue is full
and the slot holds another context than the one it is seeded with; and a registration that
succeeds adds the task. -/
theorem add_atomic_iff (hq : s.ready.Represents q) (task : NewTask) (h : TaskHandle)
    (space : AddressSpaceHandle) :
    ((∀ err s', (task.add h space).run s = .err err s' → s' = s) ↔
      ¬ (task.Accepted ∧ h.slot.index.toNat < taskArenaCapacity ∧
        q.length = taskArenaCapacity ∧ s.contexts h.slot.index ≠ task.context)) ∧
    (∀ err s', (task.add h space).run s = .err err s' → err = .queueFull) ∧
    ∀ s', (task.add h space).run s = .ok () s' → s.Added q task h space s' := by
  rcases add_cases hq task h space with ⟨hnot, p, hrun⟩ |
    ⟨⟨haccepted, hi⟩, ⟨hfull, hrun⟩ | ⟨hroom, s', hrun, hadded⟩⟩
  · rw [hrun]
    refine ⟨iff_of_true (fun _ _ hend => (nomatch hend)) fun hcon => hnot ⟨hcon.1, hcon.2.1⟩,
      fun _ _ hend => (nomatch hend), fun _ hend => (nomatch hend)⟩
  · rw [hrun]
    refine ⟨⟨fun hatomic hcon => hcon.2.2.2 ?_, fun hcond err s' hend => ?_⟩,
      fun err s' hend => ?_, fun _ hend => (nomatch hend)⟩
    · have hsame := congrArg contexts (hatomic _ _ rfl)
      have hcell := congrFun hsame h.slot.index
      unfold seeded at hcell
      dsimp only at hcell
      rw [Function.update_self] at hcell
      exact hcell.symm
    · cases hend
      have hcontext : s.contexts h.slot.index = task.context := by
        by_contra hne
        exact hcond ⟨haccepted, hi, hfull, hne⟩
      unfold seeded
      rw [← hcontext, Function.update_eq_self]
    · cases hend
      rfl
  · rw [hrun]
    refine ⟨iff_of_true (fun _ _ hend => (nomatch hend)) fun hcon => ?_,
      fun _ _ hend => (nomatch hend), fun s'' hend => ?_⟩
    · have hfull := hcon.2.2.1
      omega
    · cases hend
      exact hadded

/-- A kernel task in every slot. -/
def fullOps : List KernelOp :=
  (List.range taskArenaCapacity).map fun i =>
    .addTask ⟨⟨BitVec.ofNat 16 i, 0⟩⟩ ⟨⟨0, 0⟩⟩ 4096 (8192 + 4096 * i)

omit [Build] in
/-- With every task in the queue, the registration of the slot `3` is refused and changes
nothing where it seeds the context that waits there. The first registration succeeds. -/
theorem add_atomic_iff_refused : let _ : Build := debugBuild
    let s := (Kernel.afterTrace (Kernel.boot IpcSystem.boot) fullOps).sched
    (∃ s', ((NewTask.kernel 4096 20480).add ⟨⟨3, 1⟩⟩ ⟨⟨0, 0⟩⟩).run s = .err .queueFull s' ∧
      s' = s) ∧
    ∃ s', ((NewTask.user 4096 8192 65536 1).add ⟨⟨0, 0⟩⟩ ⟨⟨0, 0⟩⟩).run new = .ok () s' ∧
      new.Added [] (.user 4096 8192 65536 1) ⟨⟨0, 0⟩⟩ ⟨⟨0, 0⟩⟩ s' := by
  intro _ s
  constructor
  · obtain ⟨q, hinv, -⟩ := Kernel.inv_of_run IpcSystem.boot_sound
      (Kernel.trace_run (Kernel.boot IpcSystem.boot) fullOps)
    have hcontext : s.contexts 3 = .kernelEntry 4096 20480 := by with_unfolding_all rfl
    obtain ⟨s', hadd⟩ : ∃ s', ((NewTask.kernel 4096 20480).add ⟨⟨3, 1⟩⟩ ⟨⟨0, 0⟩⟩).run s =
        .err .queueFull s' := ⟨_, by with_unfolding_all rfl⟩
    refine ⟨s', hadd, (add_atomic_iff hinv.part.ready _ _ _).1.mpr ?_ .queueFull s' hadd⟩
    rintro ⟨-, -, -, hother⟩
    exact hother hcontext
  · have hnew : new.ready.Represents [] := SchedQueue.new_represents (by decide)
    obtain ⟨s', hrun⟩ : ∃ s', ((NewTask.user 4096 8192 65536 1).add ⟨⟨0, 0⟩⟩ ⟨⟨0, 0⟩⟩).run new =
        .ok () s' := ⟨_, by with_unfolding_all rfl⟩
    exact ⟨s', hrun, (add_atomic_iff hnew _ _ _).2.2 s' hrun⟩

omit [Build] in
/-- With every task in the queue, the registration of a new task in the slot `3` is
refused, and the task that waits there would start at the entry of the new one. -/
theorem add_refused_seeds : ∃ (evs : List KernelEvent) (k : Kernel) (s' : Scheduler),
    @Run _ _ (@KernelStep debugBuild) (Kernel.boot IpcSystem.boot) evs k ∧
    (@NewTask.add debugBuild (.kernel 16384 65536) ⟨⟨3, 1⟩⟩ ⟨⟨0, 0⟩⟩).run k.sched =
      .err .queueFull s' ∧
    k.sched.contexts 3 = .kernelEntry 4096 20480 ∧ s'.contexts 3 = .kernelEntry 16384 65536 ∧
    s' ≠ k.sched := by
  let _ : Build := debugBuild
  have hrun := Kernel.trace_run (Kernel.boot IpcSystem.boot) fullOps
  have hcontext : (Kernel.afterTrace (Kernel.boot IpcSystem.boot) fullOps).sched.contexts 3 =
      .kernelEntry 4096 20480 := by
    with_unfolding_all rfl
  obtain ⟨s', hadd, hseeded⟩ : ∃ s', (NewTask.add (.kernel 16384 65536) ⟨⟨3, 1⟩⟩ ⟨⟨0, 0⟩⟩).run
      (Kernel.afterTrace (Kernel.boot IpcSystem.boot) fullOps).sched = .err .queueFull s' ∧
      s'.contexts 3 = .kernelEntry 16384 65536 :=
    ⟨_, by with_unfolding_all rfl, by with_unfolding_all rfl⟩
  refine ⟨_, _, s', hrun, hadd, hcontext, hseeded, fun hsame => ?_⟩
  rw [hsame, hcontext] at hseeded
  cases hseeded

end Scheduler

end Tyrne
