import Tyrne.Sched.Scheduler

/-!
# The partition of tasks

Every registered task that may run is current, idle, in the ready queue, or has exited,
and the ready queue holds none of the others. `Partitioned` states this against the list
in the ring buffer and the list of exited tasks; each scheduler operation is shown to end
without a panic in a state that is partitioned again.
-/

namespace Tyrne.Scheduler

variable {s s' : Scheduler} {q ex rest : List TaskHandle} {h c n : TaskHandle} {i : Index}
  {r : SchedQueue taskArenaCapacity} {ep : EndpointHandle}

/-- The slot of the handle is registered under it. -/
def Registered (s : Scheduler) (h : TaskHandle) : Prop :=
  s.taskHandles h.slot.index = some h

/-- The task is registered and ready. -/
def Runnable (s : Scheduler) (h : TaskHandle) : Prop :=
  s.Registered h ∧ s.taskStates h.slot.index = .ready

structure Partitioned (s : Scheduler) (q ex : List TaskHandle) : Prop where
  ready : s.ready.Represents q
  nodup : q.Nodup
  handles : ∀ i h, s.taskHandles i = some h → h.slot.index = i ∧ i.toNat < taskArenaCapacity
  vacant : ∀ i, s.taskHandles i = none → s.taskStates i = .idle
  occupied : ∀ i h, s.taskHandles i = some h → s.taskStates i ≠ .idle
  current : ∀ h, s.current = some h → s.Runnable h ∧ h ∉ q ∧ h ∉ ex
  idle : ∀ h, s.idle = some h → s.Runnable h ∧ h ∉ q ∧ h ∉ ex
  queued : ∀ h ∈ q, s.Runnable h ∧ h ∉ ex
  exited : ∀ h ∈ ex, s.Runnable h
  placed : ∀ h, s.Runnable h → s.current = some h ∨ s.idle = some h ∨ h ∈ q ∨ h ∈ ex

/-- The next task is the head of the queue, or idle when the queue is empty. -/
inductive Picks (idle : Option TaskHandle) :
    List TaskHandle → TaskHandle → List TaskHandle → Prop
  | front {n : TaskHandle} {rest : List TaskHandle} : Picks idle (n :: rest) n rest
  | fallback {n : TaskHandle} : idle = some n → Picks idle [] n []

/-! ## Consequences -/

theorem new_partitioned : new.Partitioned [] [] where
  ready := SchedQueue.new_represents (by decide)
  nodup := List.nodup_nil
  handles _ _ hreg := by cases hreg
  vacant _ _ := rfl
  occupied _ _ hreg := by cases hreg
  current _ hcur := by cases hcur
  idle _ hidle := by cases hidle
  queued _ hmem := by cases hmem
  exited _ hmem := by cases hmem
  placed _ hrun := by
    obtain ⟨hreg, -⟩ := hrun
    cases hreg

theorem Registered.unique (hh : s.Registered h) (hc : s.Registered c)
    (hindex : h.slot.index = c.slot.index) : h = c := by
  unfold Registered at hh hc
  rw [hindex, hc] at hh
  exact (Option.some_injective _ hh).symm

namespace Partitioned

variable (hp : s.Partitioned q ex)
include hp

theorem bound (hh : s.Registered h) : h.slot.index.toNat < taskArenaCapacity :=
  (hp.handles _ _ hh).2

/-- While some slot belongs to no queued task, the queue has room. -/
theorem room_of_slot (hi : i.toNat < taskArenaCapacity) (hfree : ∀ h ∈ q, h.slot.index ≠ i) :
    q.length < taskArenaCapacity := by
  have hinj : ∀ h ∈ q, ∀ c ∈ q, h.slot.index = c.slot.index → h = c :=
    fun h hh c hc => Registered.unique (hp.queued h hh).1.1 (hp.queued c hc).1.1
  have hnodup : (i :: q.map fun h => h.slot.index).Nodup := by
    refine List.nodup_cons.mpr ⟨fun hmem => ?_, hp.nodup.map_on hinj⟩
    obtain ⟨h, hh, heq⟩ := List.mem_map.mp hmem
    exact hfree h hh heq
  have hbound : ∀ j ∈ i :: q.map fun h => h.slot.index, j.toNat < taskArenaCapacity := by
    intro j hj
    rcases List.mem_cons.mp hj with rfl | hmem
    · exact hi
    · obtain ⟨h, hh, rfl⟩ := List.mem_map.mp hmem
      exact hp.bound (hp.queued h hh).1.1
  have hlength := length_le_of_nodup hnodup hbound
  rw [List.length_cons, List.length_map] at hlength
  exact hlength

theorem room (hh : s.Registered h) (hnot : h ∉ q) : q.length < taskArenaCapacity := by
  apply hp.room_of_slot (hp.bound hh)
  intro c hc hindex
  have heq := Registered.unique (hp.queued c hc).1.1 hh hindex
  exact hnot (heq ▸ hc)

/-- The picked task is runnable, has not exited and is not left in the queue. -/
theorem picked (hpick : Picks s.idle q n rest) :
    s.Runnable n ∧ n ∉ ex ∧ n ∉ rest ∧ rest.Nodup ∧ ∀ h ∈ rest, h ∈ q := by
  cases hpick with
  | front =>
    obtain ⟨hrun, hex⟩ := hp.queued n List.mem_cons_self
    obtain ⟨hnot, hnodup⟩ := List.nodup_cons.mp hp.nodup
    exact ⟨hrun, hex, hnot, hnodup, fun h hh => List.mem_cons_of_mem n hh⟩
  | fallback hidle =>
    obtain ⟨hrun, hnot, hex⟩ := hp.idle n hidle
    exact ⟨hrun, hex, hnot, hp.nodup, fun h hh => hh⟩

theorem mem_of_picks (hpick : Picks s.idle q n rest) (hh : h ∈ q) : h = n ∨ h ∈ rest := by
  cases hpick with
  | front => exact List.mem_cons.mp hh
  | fallback => cases hh

end Partitioned

/-! ## Single writes -/

theorem setTaskState_run (hi : i.toNat < taskArenaCapacity) (state : TaskState) :
    (setTaskState i state).run s =
      .ok () { s with taskStates := Function.update s.taskStates i state } := if_pos hi

theorem setContext_run (hi : i.toNat < taskArenaCapacity) (context : TaskContext) :
    (setContext i context).run s =
      .ok () { s with contexts := Function.update s.contexts i context } := if_pos hi

theorem setTaskHandle_run (hi : i.toNat < taskArenaCapacity) (h : TaskHandle) :
    (setTaskHandle i h).run s =
      .ok () { s with taskHandles := Function.update s.taskHandles i (some h) } := if_pos hi

theorem setAddressSpaceHandle_run (hi : i.toNat < taskArenaCapacity)
    (handle : AddressSpaceHandle) : (setAddressSpaceHandle i handle).run s = .ok () { s with
      taskAddressSpaceHandles := Function.update s.taskAddressSpaceHandles i (some handle) } :=
  if_pos hi

theorem setCapTable_run (hi : i.toNat < taskArenaCapacity) (capTable : Option TablePtr) :
    (setCapTable i capTable).run s =
      .ok () { s with taskCapTables := Function.update s.taskCapTables i capTable } := if_pos hi

theorem setUserWindow_run (hi : i.toNat < taskArenaCapacity) (window : UserAccessWindow) :
    (setUserWindow i window).run s =
      .ok () { s with taskUserWindows := Function.update s.taskUserWindows i (some window) } :=
  if_pos hi

/-- Marking a ready task ready does nothing. -/
theorem setTaskState_ready (hi : i.toNat < taskArenaCapacity) (hready : s.taskStates i = .ready) :
    (setTaskState i .ready).run s = .ok () s := by
  rw [setTaskState_run hi, ← hready, Function.update_eq_self]

theorem tryEnqueue_run (hr : s.ready.Represents q) (hroom : q.length < taskArenaCapacity)
    (h : TaskHandle) : ∃ r, r.Represents (q ++ [h]) ∧
      (tryEnqueue h).run s = .ok () { s with ready := r } := by
  obtain ⟨r, hrun, hrep⟩ := hr.enqueue_run hroom (by decide) h
  exact ⟨r, hrep, Prog.zoom_ok hrun⟩

theorem enqueueReady_run (hr : s.ready.Represents q) (hroom : q.length < taskArenaCapacity)
    (h : TaskHandle) : ∃ r, r.Represents (q ++ [h]) ∧
      (enqueueReady h).run s = .ok () { s with ready := r } := by
  obtain ⟨r, hrep, hrun⟩ := tryEnqueue_run hr hroom h
  exact ⟨r, hrep, Prog.expect_ok hrun _⟩

theorem dequeueReady_nil (hr : s.ready.Represents []) : dequeueReady.run s = .ok none s :=
  Prog.zoom_ok hr.dequeue_nil

theorem dequeueReady_cons (hr : s.ready.Represents (n :: rest)) :
    ∃ r, r.Represents rest ∧ dequeueReady.run s = .ok (some n) { s with ready := r } := by
  obtain ⟨r, hrun, hrep⟩ := hr.dequeue_cons (ε := SchedError) (by decide)
  exact ⟨r, hrep, Prog.zoom_ok hrun⟩

/-- The address space to activate when the task of slot `i` hands over to that of `j`. -/
def handover (s : Scheduler) (i j : Index) : Option AddressSpaceHandle :=
  addressSpaceActivationTarget (s.taskAddressSpaceHandles i) (s.taskAddressSpaceHandles j)

theorem dispatchFrom_run (hi : i.toNat < taskArenaCapacity)
    (hn : n.slot.index.toNat < taskArenaCapacity)
    (hready : s.taskStates n.slot.index = .ready) :
    (dispatchFrom i n).run s =
      .ok ⟨i, n.slot.index, s.handover i n.slot.index⟩ { s with current := some n } := by
  unfold dispatchFrom
  rw [Prog.bind_ok (setTaskState_ready hn hready)]
  simp [setCurrent, readCell, hi, hn, Prog.bind_run, handover]

/-! ## How the operations end -/

section Dispatch

variable (hp : s.Partitioned q ex)
include hp

theorem startPrelude_run (hsome : q ≠ [] ∨ s.idle ≠ none) :
    ∃ n rest r, Picks s.idle q n rest ∧ r.Represents rest ∧
      startPrelude.run s = .ok n.slot.index { s with ready := r, current := some n } := by
  have hfinish : ∀ {n : TaskHandle} {s' : Scheduler}, s'.taskStates = s.taskStates →
      s.Runnable n → (do
        let nextIdx := n.slot.index
        setTaskState nextIdx .ready
        setCurrent (some n)
        return nextIdx : SchedM Index).run s' =
          .ok n.slot.index { s' with current := some n } := by
    intro n s' hsame hrun
    have hready : s'.taskStates n.slot.index = .ready := by rw [hsame, hrun.2]
    rw [Prog.bind_ok (setTaskState_ready (hp.bound hrun.1) hready)]
    rfl
  unfold startPrelude
  cases q with
  | nil =>
    obtain ⟨n, hn⟩ : ∃ n, s.idle = some n :=
      Option.ne_none_iff_exists'.mp (hsome.resolve_left fun hne => hne rfl)
    refine ⟨n, [], s.ready, .fallback hn, hp.ready, ?_⟩
    have hor : Option.or none s.idle = some n := hn
    rw [Prog.bind_ok (dequeueReady_nil hp.ready), Prog.get_bind_run, hor]
    exact hfinish rfl (hp.idle n hn).1
  | cons n rest =>
    obtain ⟨r, hr, hrun⟩ := dequeueReady_cons hp.ready
    refine ⟨n, rest, r, .front, hr, ?_⟩
    rw [Prog.bind_ok hrun, Prog.get_bind_run]
    exact hfinish rfl (hp.queued n List.mem_cons_self).1

/-- With nothing to run, there is no dispatch. -/
theorem startPrelude_panic (hq : q = []) (hidle : s.idle = none) :
    ∃ p, startPrelude.run s = .panic p := by
  subst hq
  unfold startPrelude
  rw [Prog.bind_ok (dequeueReady_nil hp.ready), Prog.get_bind_run, hidle]
  exact ⟨_, rfl⟩

/-- A yield stays when nothing else is ready; otherwise the head of the queue, at whose
back a task other than idle has put itself, is dispatched. -/
theorem yieldPrelude_run (hc : s.current = some c) :
    (q = [] ∧ ∃ r, r.Represents [] ∧ yieldPrelude.run s = .ok none { s with ready := r }) ∨
    ∃ n rest r, (if s.idle = some c then q else q ++ [c]) = n :: rest ∧ n ∈ q ∧
      r.Represents rest ∧ yieldPrelude.run s =
        .ok (some ⟨c.slot.index, n.slot.index, s.handover c.slot.index n.slot.index⟩)
          { s with ready := r, current := some n } := by
  obtain ⟨hcrun, hcq, hcex⟩ := hp.current c hc
  have hbound := hp.bound hcrun.1
  have hdispatch : ∀ {n : TaskHandle} {r : SchedQueue taskArenaCapacity}, n ∈ q →
      (dispatchFrom c.slot.index n).run { s with ready := r } =
        .ok ⟨c.slot.index, n.slot.index, s.handover c.slot.index n.slot.index⟩
          { s with ready := r, current := some n } := by
    intro n r hn
    have hnrun := (hp.queued n hn).1
    exact dispatchFrom_run (s := { s with ready := r }) hbound (hp.bound hnrun.1) hnrun.2
  have hne : ∀ {n : TaskHandle}, n ∈ q → n ≠ c := by
    rintro n hn rfl
    exact hcq hn
  have hcur : (Prog.okOr s.current .noCurrentTask : SchedM TaskHandle) = pure c := by
    rw [hc, Prog.okOr_some]
  unfold yieldPrelude
  rw [Prog.get_bind_run, hcur, Prog.pure_bind_run]
  dsimp only
  rw [Prog.bind_ok (setTaskState_ready hbound hcrun.2)]
  by_cases hidle : s.idle = some c
  · -- idle does not enqueue itself
    rw [if_pos (decide_eq_true hidle), if_pos hidle]
    cases q with
    | nil =>
      refine Or.inl ⟨rfl, s.ready, hp.ready, ?_⟩
      have hfilter : s.idle.filter (· ≠ c) = none := by simp [hidle]
      rw [Prog.bind_ok (dequeueReady_nil hp.ready), Prog.get_bind_run]
      dsimp only
      rw [hfilter]
      rfl
    | cons n rest =>
      obtain ⟨r, hr, hrun⟩ := dequeueReady_cons hp.ready
      refine Or.inr ⟨n, rest, r, rfl, List.mem_cons_self, hr, ?_⟩
      rw [Prog.bind_ok hrun, Prog.get_bind_run]
      dsimp only
      rw [if_pos (hne List.mem_cons_self), Prog.bind_ok (hdispatch List.mem_cons_self)]
      rfl
  · obtain ⟨r₁, hr₁, henq⟩ := enqueueReady_run hp.ready (hp.room hcrun.1 hcq) c
    rw [if_neg (by simpa using hidle), if_neg hidle, Prog.bind_ok henq]
    cases q with
    | nil =>
      obtain ⟨r, hr, hrun⟩ := dequeueReady_cons (s := { s with ready := r₁ }) hr₁
      refine Or.inl ⟨rfl, r, hr, ?_⟩
      rw [Prog.bind_ok hrun, Prog.get_bind_run]
      simp
    | cons n rest =>
      obtain ⟨r, hr, hrun⟩ := dequeueReady_cons (s := { s with ready := r₁ }) hr₁
      refine Or.inr ⟨n, rest ++ [c], r, rfl, List.mem_cons_self, hr, ?_⟩
      rw [Prog.bind_ok hrun, Prog.get_bind_run]
      dsimp only
      rw [if_pos (hne List.mem_cons_self), Prog.bind_ok (hdispatch List.mem_cons_self)]
      rfl

/-- A task other than the one that has blocked is dispatched. -/
theorem dispatch_blocked {r : SchedQueue taskArenaCapacity} (hc : s.Runnable c)
    (hn : s.Runnable n) (hne : n ≠ c) (ep : EndpointHandle) :
    (dispatchFrom c.slot.index n).run { s with
        ready := r
        taskStates := Function.update s.taskStates c.slot.index (.blocked ep)
        current := none } =
      .ok ⟨c.slot.index, n.slot.index, s.handover c.slot.index n.slot.index⟩ { s with
        ready := r
        taskStates := Function.update s.taskStates c.slot.index (.blocked ep)
        current := some n } := by
  have hindex : n.slot.index ≠ c.slot.index := fun heq => hne (hn.1.unique hc.1 heq)
  have hready : Function.update s.taskStates c.slot.index (.blocked ep) n.slot.index = .ready := by
    rw [Function.update_of_ne hindex]
    exact hn.2
  exact dispatchFrom_run (s := { s with
    ready := r
    taskStates := Function.update s.taskStates c.slot.index (.blocked ep)
    current := none }) (hp.bound hc.1) (hp.bound hn.1) hready

variable [Build]

/-- Blocking the current task dispatches the next, or restores the scheduler when there
is none. -/
theorem blockCurrent_run (hc : s.current = some c) (hidle : s.idle ≠ some c)
    (ep : EndpointHandle) :
    (∃ n rest r, Picks s.idle q n rest ∧ n ≠ c ∧ r.Represents rest ∧
      (blockCurrent ep).run s =
        .ok (some ⟨c.slot.index, n.slot.index, s.handover c.slot.index n.slot.index⟩)
          { s with
            ready := r
            taskStates := Function.update s.taskStates c.slot.index (.blocked ep)
            current := some n }) ∨
    (q = [] ∧ s.idle = none ∧ (blockCurrent ep).run s = .ok none s) := by
  obtain ⟨hcrun, hcq, hcex⟩ := hp.current c hc
  have hbound := hp.bound hcrun.1
  have hread : (readCell taskArenaCapacity taskStates c.slot.index : SchedM _).run s =
      .ok .ready s := by
    simp [readCell, hbound, hcrun.2]
  have hcur : (Prog.okOr s.current .noCurrentTask : SchedM TaskHandle) = pure c := by
    rw [hc, Prog.okOr_some]
  unfold blockCurrent
  rw [Prog.get_bind_run, hcur, Prog.pure_bind_run]
  dsimp only
  rw [Prog.bind_ok hread, debugAssert_pos rfl, Prog.pure_bind_run,
    Prog.bind_ok (setTaskState_run hbound _)]
  dsimp only [setCurrent]
  rw [Prog.modify_bind_run]
  cases q with
  | cons n rest =>
    obtain ⟨r, hr, hrun⟩ := dequeueReady_cons (s := { s with
      taskStates := Function.update s.taskStates c.slot.index (.blocked ep)
      current := none }) hp.ready
    have hnrun := (hp.queued n List.mem_cons_self).1
    have hne : n ≠ c := by
      rintro rfl
      exact hcq List.mem_cons_self
    refine Or.inl ⟨n, rest, r, .front, hne, hr, ?_⟩
    rw [Prog.bind_ok hrun, Prog.get_bind_run]
    dsimp only [Option.or]
    rw [Prog.bind_ok (dispatch_blocked hp hcrun hnrun hne ep)]
    rfl
  | nil =>
    have hdeq : dequeueReady.run { s with
        taskStates := Function.update s.taskStates c.slot.index (.blocked ep)
        current := none } = .ok none _ := dequeueReady_nil hp.ready
    rw [Prog.bind_ok hdeq, Prog.get_bind_run]
    dsimp only
    by_cases hnone : s.idle = none
    · have hor : Option.or none (s.idle.filter (· ≠ c)) = none := by simp [hnone]
      refine Or.inr ⟨rfl, hnone, ?_⟩
      rw [hor]
      dsimp only
      rw [Prog.bind_ok (setTaskState_run hbound _)]
      have hrestore : Function.update (Function.update s.taskStates c.slot.index (.blocked ep))
          c.slot.index .ready = s.taskStates := by
        rw [Function.update_idem, ← hcrun.2, Function.update_eq_self]
      dsimp only [setCurrent]
      rw [Prog.modify_bind_run, hrestore, ← hc]
      rfl
    · obtain ⟨n, hn⟩ := Option.ne_none_iff_exists'.mp hnone
      have hne : n ≠ c := by
        rintro rfl
        exact hidle hn
      have hor : Option.or none (s.idle.filter (· ≠ c)) = some n := by simp [hn, hne]
      have hnrun := (hp.idle n hn).1
      refine Or.inl ⟨n, [], s.ready, .fallback hn, hne, hp.ready, ?_⟩
      rw [hor]
      dsimp only
      rw [Prog.bind_ok (dispatch_blocked hp hcrun hnrun hne ep)]
      rfl

end Dispatch

section Register

variable {idle : Option TaskHandle} {addressSpaceHandle : AddressSpaceHandle}
  {entry stackTop userEntry userSp kernelStackTop : ℕ} {capTable : TablePtr}
  {context : TaskContext}

/-- The registration of `h` in the address space `space`, with a fresh context. -/
structure Registers (s : Scheduler) (h : TaskHandle) (space : AddressSpaceHandle)
    (r : SchedQueue taskArenaCapacity) (idle : Option TaskHandle) (context : TaskContext)
    (s' : Scheduler) : Prop where
  ready : s'.ready = r
  taskStates : s'.taskStates = Function.update s.taskStates h.slot.index .ready
  taskHandles : s'.taskHandles = Function.update s.taskHandles h.slot.index (some h)
  spaces : s'.taskAddressSpaceHandles =
    Function.update s.taskAddressSpaceHandles h.slot.index (some space)
  current : s'.current = s.current
  idle : s'.idle = idle
  contexts : s'.contexts = Function.update s.contexts h.slot.index context

theorem addTask_run (hr : s.ready.Represents q) (hroom : q.length < taskArenaCapacity)
    (hi : h.slot.index.toNat < taskArenaCapacity) :
    ∃ r s', r.Represents (q ++ [h]) ∧
      (addTask h addressSpaceHandle entry stackTop).run s = .ok () s' ∧
      Registers s h addressSpaceHandle r s.idle (.kernelEntry entry stackTop) s' := by
  obtain ⟨r, hrep, hrun⟩ := tryEnqueue_run (s := { s with
    contexts := Function.update s.contexts h.slot.index (.kernelEntry entry stackTop) })
    hr hroom h
  unfold addTask
  dsimp only
  rw [Prog.bind_ok (setContext_run hi _), Prog.bind_ok hrun,
    Prog.bind_ok (setTaskState_run hi _), Prog.bind_ok (setTaskHandle_run hi _)]
  exact ⟨r, _, hrep, setAddressSpaceHandle_run hi _, rfl, rfl, rfl, rfl, rfl, rfl, rfl⟩

theorem registerIdle_run (hnone : s.idle = none) (hi : h.slot.index.toNat < taskArenaCapacity) :
    ∃ s', (registerIdle h addressSpaceHandle entry stackTop).run s = .ok () s' ∧
      Registers s h addressSpaceHandle s.ready (some h) (.kernelEntry entry stackTop) s' := by
  unfold registerIdle
  rw [Prog.get_bind_run, if_pos hnone]
  dsimp only
  rw [Prog.bind_ok (setContext_run hi _), Prog.bind_ok (setTaskState_run hi _),
    Prog.bind_ok (setTaskHandle_run hi _), Prog.bind_ok (setAddressSpaceHandle_run hi _)]
  exact ⟨_, rfl, rfl, rfl, rfl, rfl, rfl, rfl, rfl⟩

variable [Build]

theorem addUserTask_run (hr : s.ready.Represents q) (hroom : q.length < taskArenaCapacity)
    (hi : h.slot.index.toNat < taskArenaCapacity)
    (hstack : kernelStackTop ≠ 0 ∧ kernelStackTop % 16 = 0) (hsp : userSp % 16 = 0)
    (htable : capTable ≠ 0) :
    ∃ r s', r.Represents (q ++ [h]) ∧
      (addUserTask h addressSpaceHandle userEntry userSp kernelStackTop capTable).run s =
        .ok () s' ∧
      Registers s h addressSpaceHandle r s.idle
        (.userEntry userEntry userSp kernelStackTop) s' := by
  obtain ⟨r, hrep, hrun⟩ := tryEnqueue_run (s := { s with
    contexts := Function.update s.contexts h.slot.index
      (.userEntry userEntry userSp kernelStackTop) }) hr hroom h
  unfold addUserTask
  dsimp only
  rw [debugAssert_pos hstack, Prog.pure_bind_run, debugAssert_pos hsp, Prog.pure_bind_run,
    debugAssert_pos htable, Prog.pure_bind_run, Prog.bind_ok (setContext_run hi _),
    Prog.bind_ok hrun, Prog.bind_ok (setTaskState_run hi _),
    Prog.bind_ok (setTaskHandle_run hi _), Prog.bind_ok (setAddressSpaceHandle_run hi _),
    Prog.bind_ok (setCapTable_run hi _)]
  exact ⟨r, _, hrep, setUserWindow_run hi _, rfl, rfl, rfl, rfl, rfl, rfl, rfl⟩

end Register

/-! ## Waking a receiver -/

/-- The scan covers the slots. -/
theorem mem_scanned : i ∈ (List.range taskArenaCapacity).map (BitVec.ofNat 16) ↔
    i.toNat < taskArenaCapacity := by
  have hcells := mem_cells (n := taskArenaCapacity) (by decide) (i := i)
  rw [← hcells]
  simp [cells]

section Unblock

variable [Build] (hp : s.Partitioned q ex)
include hp

omit [Build] in
/-- A blocked task is registered, and not in the queue. -/
theorem Partitioned.blocked (hblocked : s.taskStates i = .blocked ep) :
    ∃ h, s.taskHandles i = some h ∧ h.slot.index = i ∧ s.Registered h ∧ h ∉ q ∧
      i.toNat < taskArenaCapacity := by
  have hsome : s.taskHandles i ≠ none := by
    intro hnone
    have hidle := hp.vacant i hnone
    rw [hblocked] at hidle
    cases hidle
  obtain ⟨h, hh⟩ := Option.ne_none_iff_exists'.mp hsome
  obtain ⟨rfl, hbound⟩ := hp.handles i h hh
  refine ⟨h, hh, rfl, hh, fun hmem => ?_, hbound⟩
  have hready := (hp.queued h hmem).1.2
  rw [hblocked] at hready
  cases hready

theorem unblockScan_run (ep : EndpointHandle) {idxs : List Index}
    (hidxs : ∀ i ∈ idxs, i.toNat < taskArenaCapacity) :
    ((∀ i ∈ idxs, s.taskStates i ≠ .blocked ep) ∧ (unblockScan ep idxs).run s = .ok () s) ∨
    ∃ i h r, s.taskStates i = .blocked ep ∧ s.taskHandles i = some h ∧
      r.Represents (q ++ [h]) ∧ (unblockScan ep idxs).run s =
        .ok () { s with ready := r, taskStates := Function.update s.taskStates i .ready } := by
  induction idxs with
  | nil =>
    left
    exact ⟨(fun _ hmem => nomatch hmem), rfl⟩
  | cons i rest ih =>
    have hi := hidxs i List.mem_cons_self
    have hstate : (readCell taskArenaCapacity taskStates i : SchedM _).run s =
        .ok (s.taskStates i) s := if_pos hi
    have hhandle : (readCell taskArenaCapacity taskHandles i : SchedM _).run s =
        .ok (s.taskHandles i) s := if_pos hi
    unfold unblockScan
    rw [Prog.bind_ok hstate]
    by_cases hblocked : s.taskStates i = .blocked ep
    · right
      obtain ⟨h, hh, hindex, hreg, hq, -⟩ := hp.blocked hblocked
      obtain ⟨r, hr, henq⟩ := enqueueReady_run (s := { s with
        taskStates := Function.update s.taskStates i .ready }) hp.ready (hp.room hreg hq) h
      refine ⟨i, h, r, hblocked, hh, hr, ?_⟩
      rw [if_pos hblocked, Prog.bind_ok hhandle, hh, debugAssert_pos Option.isSome_some,
        Prog.pure_bind_run]
      dsimp only
      rw [Prog.bind_ok (setTaskState_run hi _)]
      exact henq
    · rw [if_neg hblocked]
      rcases ih fun j hj => hidxs j (List.mem_cons_of_mem i hj) with ⟨hnone, hrun⟩ | hwoken
      · left
        exact ⟨List.forall_mem_cons.mpr ⟨hblocked, hnone⟩, hrun⟩
      · exact Or.inr hwoken

theorem unblockReceiverOn_run (ep : EndpointHandle) :
    ((∀ i, s.taskStates i ≠ .blocked ep) ∧ (unblockReceiverOn ep).run s = .ok () s) ∨
    ∃ i h r, s.taskStates i = .blocked ep ∧ s.taskHandles i = some h ∧
      r.Represents (q ++ [h]) ∧ (unblockReceiverOn ep).run s =
        .ok () { s with ready := r, taskStates := Function.update s.taskStates i .ready } := by
  rcases unblockScan_run hp ep (fun i hi => mem_scanned.mp hi) with ⟨hnone, hrun⟩ | hwoken
  · left
    refine ⟨fun i hblocked => ?_, hrun⟩
    obtain ⟨-, -, -, -, -, hbound⟩ := hp.blocked hblocked
    exact hnone i (mem_scanned.mpr hbound) hblocked
  · exact Or.inr hwoken

end Unblock

/-! ## The partition is kept -/

namespace Partitioned

variable (hp : s.Partitioned q ex)
include hp

/-- A yield that stays only turns the ring. -/
theorem stays (hr : r.Represents q) : Partitioned { s with ready := r } q ex :=
  { hp with ready := hr }

theorem saves (contexts : Index → TaskContext) : Partitioned { s with contexts } q ex :=
  { hp with }

theorem yields (hc : s.current = some c)
    (hsplit : (if s.idle = some c then q else q ++ [c]) = n :: rest) (hn : n ∈ q)
    (hr : r.Represents rest) : Partitioned { s with ready := r, current := some n } rest ex := by
  obtain ⟨hcrun, hcq, hcex⟩ := hp.current c hc
  have hmem : ∀ h, h ∈ (if s.idle = some c then q else q ++ [c]) ↔
      h ∈ q ∨ (h = c ∧ s.idle ≠ some c) := by
    intro h
    split <;> simp [*]
  rw [hsplit] at hmem
  have hnodup : (n :: rest).Nodup := by
    rw [← hsplit]
    split
    · exact hp.nodup
    · exact hp.nodup.append (List.nodup_singleton c) (by simpa using hcq)
  obtain ⟨hnrest, hrest⟩ := List.nodup_cons.mp hnodup
  obtain ⟨hnrun, hnex⟩ := hp.queued n hn
  have hof : ∀ h ∈ rest, s.Runnable h ∧ h ∉ ex := by
    intro h hh
    rcases (hmem h).mp (List.mem_cons_of_mem n hh) with hq | ⟨rfl, -⟩
    · exact hp.queued h hq
    · exact ⟨hcrun, hcex⟩
  refine ⟨hr, hrest, hp.handles, hp.vacant, hp.occupied, ?_, ?_, hof, hp.exited, ?_⟩
  · intro h hh
    cases hh
    exact ⟨hnrun, hnrest, hnex⟩
  · intro h hh
    obtain ⟨hrun, hq, hex⟩ := hp.idle h hh
    refine ⟨hrun, fun hmem' => ?_, hex⟩
    rcases (hmem h).mp (List.mem_cons_of_mem n hmem') with hq' | ⟨rfl, hne⟩
    · exact hq hq'
    · exact hne hh
  · intro h hrun
    rcases hp.placed h hrun with hcur | hidle | hq | hex
    · obtain rfl : c = h := Option.some_injective _ (hc.symm.trans hcur)
      by_cases hidle : s.idle = some c
      · exact Or.inr (Or.inl hidle)
      · rcases List.mem_cons.mp ((hmem c).mpr (Or.inr ⟨rfl, hidle⟩)) with rfl | hh
        · exact Or.inl rfl
        · exact Or.inr (Or.inr (Or.inl hh))
    · exact Or.inr (Or.inl hidle)
    · rcases List.mem_cons.mp ((hmem h).mpr (Or.inl hq)) with rfl | hh
      · exact Or.inl rfl
      · exact Or.inr (Or.inr (Or.inl hh))
    · exact Or.inr (Or.inr (Or.inr hex))

/-- The first dispatch: no task was current. -/
theorem starts (hcur : s.current = none) (hpick : Picks s.idle q n rest)
    (hr : r.Represents rest) : Partitioned { s with ready := r, current := some n } rest ex := by
  obtain ⟨hnrun, hnex, hnrest, hrest, hsub⟩ := hp.picked hpick
  refine ⟨hr, hrest, hp.handles, hp.vacant, hp.occupied, ?_, ?_, ?_, hp.exited, ?_⟩
  · intro h hh
    cases hh
    exact ⟨hnrun, hnrest, hnex⟩
  · intro h hh
    obtain ⟨hrun, hq, hex⟩ := hp.idle h hh
    exact ⟨hrun, fun hmem => hq (hsub h hmem), hex⟩
  · exact fun h hh => hp.queued h (hsub h hh)
  · intro h hrun
    rcases hp.placed h hrun with hcur' | hidle | hq | hex
    · rw [hcur] at hcur'
      cases hcur'
    · exact Or.inr (Or.inl hidle)
    · rcases hp.mem_of_picks hpick hq with rfl | hh
      · exact Or.inl rfl
      · exact Or.inr (Or.inr (Or.inl hh))
    · exact Or.inr (Or.inr (Or.inr hex))

/-- Dropping the current task leaves it with the exited ones. -/
theorem leaves (hc : s.current = some c) (hidle : s.idle ≠ some c) :
    Partitioned { s with current := none } q (ex ++ [c]) := by
  obtain ⟨hcrun, hcq, hcex⟩ := hp.current c hc
  have hmem : ∀ h, h ∈ ex ++ [c] ↔ h ∈ ex ∨ h = c := by simp
  refine ⟨hp.ready, hp.nodup, hp.handles, hp.vacant, hp.occupied, ?_, ?_, ?_, ?_, ?_⟩
  · exact fun h hh => nomatch hh
  · intro h hh
    obtain ⟨hrun, hq, hex⟩ := hp.idle h hh
    refine ⟨hrun, hq, fun hin => ?_⟩
    rcases (hmem h).mp hin with hex' | rfl
    · exact hex hex'
    · exact hidle hh
  · intro h hh
    obtain ⟨hrun, hex⟩ := hp.queued h hh
    refine ⟨hrun, fun hin => ?_⟩
    rcases (hmem h).mp hin with hex' | rfl
    · exact hex hex'
    · exact hcq hh
  · intro h hh
    rcases (hmem h).mp hh with hex | rfl
    · exact hp.exited h hex
    · exact hcrun
  · intro h hrun
    rcases hp.placed h hrun with hcur | hplaced | hq | hex
    · obtain rfl : c = h := Option.some_injective _ (hc.symm.trans hcur)
      exact Or.inr (Or.inr (Or.inr ((hmem c).mpr (Or.inr rfl))))
    · exact Or.inr (Or.inl hplaced)
    · exact Or.inr (Or.inr (Or.inl hq))
    · exact Or.inr (Or.inr (Or.inr ((hmem h).mpr (Or.inl hex))))

/-- Blocking the current task takes it out of the runnable ones. -/
theorem blocks (hc : s.current = some c) (hidle : s.idle ≠ some c) (ep : EndpointHandle) :
    Partitioned { s with
      taskStates := Function.update s.taskStates c.slot.index (.blocked ep)
      current := none } q ex := by
  obtain ⟨hcrun, hcq, hcex⟩ := hp.current c hc
  have hkeep : ∀ h, s.Runnable h → h ≠ c →
      Runnable { s with
        taskStates := Function.update s.taskStates c.slot.index (.blocked ep)
        current := none } h := by
    intro h hrun hne
    refine ⟨hrun.1, ?_⟩
    have hindex : h.slot.index ≠ c.slot.index := fun heq => hne (hrun.1.unique hcrun.1 heq)
    dsimp only
    rw [Function.update_of_ne hindex]
    exact hrun.2
  refine ⟨hp.ready, hp.nodup, hp.handles, ?_, ?_, ?_, ?_, ?_, ?_, ?_⟩
  · intro i hnone
    have hne : i ≠ c.slot.index := by
      rintro rfl
      exact absurd (hcrun.1.symm.trans hnone) (by simp)
    dsimp only
    rw [Function.update_of_ne hne]
    exact hp.vacant i hnone
  · intro i h hh
    dsimp only
    by_cases hne : i = c.slot.index
    · subst hne
      rw [Function.update_self]
      exact TaskState.noConfusion
    · rw [Function.update_of_ne hne]
      exact hp.occupied i h hh
  · exact fun h hh => nomatch hh
  · intro h hh
    obtain ⟨hrun, hq, hex⟩ := hp.idle h hh
    refine ⟨hkeep h hrun ?_, hq, hex⟩
    rintro rfl
    exact hidle hh
  · intro h hh
    obtain ⟨hrun, hex⟩ := hp.queued h hh
    refine ⟨hkeep h hrun ?_, hex⟩
    rintro rfl
    exact hcq hh
  · intro h hh
    apply hkeep h (hp.exited h hh)
    rintro rfl
    exact hcex hh
  · intro h hrun
    have hne : h.slot.index ≠ c.slot.index := by
      intro heq
      have hready := hrun.2
      dsimp only at hready
      rw [heq, Function.update_self] at hready
      cases hready
    have hready : s.taskStates h.slot.index = .ready := by
      have hready := hrun.2
      dsimp only at hready
      rwa [Function.update_of_ne hne] at hready
    rcases hp.placed h ⟨hrun.1, hready⟩ with hcur | hplaced
    · obtain rfl : c = h := Option.some_injective _ (hc.symm.trans hcur)
      exact absurd rfl hne
    · exact Or.inr hplaced

/-- A task that becomes runnable joins at the back of the queue. -/
theorem joins (hcur : s'.current = s.current) (hidle : s'.idle = s.idle)
    (hready : s'.ready.Represents (q ++ [h])) (hnot : ¬ s.Runnable h)
    (hiff : ∀ c, s'.Runnable c ↔ s.Runnable c ∨ c = h)
    (handles : ∀ i c, s'.taskHandles i = some c →
      c.slot.index = i ∧ i.toNat < taskArenaCapacity)
    (vacant : ∀ i, s'.taskHandles i = none → s'.taskStates i = .idle)
    (occupied : ∀ i c, s'.taskHandles i = some c → s'.taskStates i ≠ .idle) :
    s'.Partitioned (q ++ [h]) ex := by
  have hmem : ∀ c, c ∈ q ++ [h] ↔ c ∈ q ∨ c = h := by simp
  have hhq : h ∉ q := fun hin => hnot (hp.queued h hin).1
  have hold : ∀ c, s.Runnable c → c ∉ q → c ∉ q ++ [h] := by
    intro c hrun hq hin
    rcases (hmem c).mp hin with hq' | rfl
    · exact hq hq'
    · exact hnot hrun
  refine ⟨hready, ?_, handles, vacant, occupied, ?_, ?_, ?_, ?_, ?_⟩
  · exact hp.nodup.append (List.nodup_singleton h) (by simpa using hhq)
  · intro c hc
    obtain ⟨hrun, hq, hex⟩ := hp.current c (hcur ▸ hc)
    exact ⟨(hiff c).mpr (Or.inl hrun), hold c hrun hq, hex⟩
  · intro c hc
    obtain ⟨hrun, hq, hex⟩ := hp.idle c (hidle ▸ hc)
    exact ⟨(hiff c).mpr (Or.inl hrun), hold c hrun hq, hex⟩
  · intro c hc
    rcases (hmem c).mp hc with hq | rfl
    · obtain ⟨hrun, hex⟩ := hp.queued c hq
      exact ⟨(hiff c).mpr (Or.inl hrun), hex⟩
    · exact ⟨(hiff c).mpr (Or.inr rfl), fun hin => hnot (hp.exited c hin)⟩
  · exact fun c hc => (hiff c).mpr (Or.inl (hp.exited c hc))
  · intro c hrun
    rw [hcur, hidle]
    rcases (hiff c).mp hrun with hrun' | rfl
    · rcases hp.placed c hrun' with hcur' | hidle' | hq | hex
      · exact Or.inl hcur'
      · exact Or.inr (Or.inl hidle')
      · exact Or.inr (Or.inr (Or.inl ((hmem c).mpr (Or.inl hq))))
      · exact Or.inr (Or.inr (Or.inr hex))
    · exact Or.inr (Or.inr (Or.inl ((hmem c).mpr (Or.inr rfl))))

/-- Waking a blocked task puts it at the back of the queue. -/
theorem unblocks (hblocked : s.taskStates i = .blocked ep) (hh : s.taskHandles i = some h)
    (hr : r.Represents (q ++ [h])) : Partitioned { s with
      ready := r
      taskStates := Function.update s.taskStates i .ready } (q ++ [h]) ex := by
  obtain ⟨rfl, -⟩ := hp.handles i h hh
  have hnot : ¬ s.Runnable h := by
    intro hrun
    have hready := hrun.2
    rw [hblocked] at hready
    cases hready
  have hiff : ∀ c, Runnable { s with
      ready := r
      taskStates := Function.update s.taskStates h.slot.index .ready } c ↔
        s.Runnable c ∨ c = h := by
    intro c
    by_cases heq : c.slot.index = h.slot.index
    · constructor
      · exact fun hrun => Or.inr (hrun.1.unique (s := s) hh heq)
      · rintro (hrun | rfl)
        · exact absurd (hrun.1.unique hh heq ▸ hrun) hnot
        · exact ⟨hh, Function.update_self ..⟩
    · have hne : c ≠ h := fun hch => heq (congrArg (·.slot.index) hch)
      simp [Runnable, Registered, Function.update_of_ne heq, hne]
  refine hp.joins ?_ ?_ ?_ hnot hiff hp.handles ?_ ?_
  · rfl
  · rfl
  · exact hr
  · intro j hnone
    have hne : j ≠ h.slot.index := by
      rintro rfl
      exact absurd (hh.symm.trans hnone) (by simp)
    dsimp only
    rw [Function.update_of_ne hne]
    exact hp.vacant j hnone
  · intro j c hc
    dsimp only
    by_cases hne : j = h.slot.index
    · subst hne
      rw [Function.update_self]
      exact TaskState.noConfusion
    · rw [Function.update_of_ne hne]
      exact hp.occupied j c hc

end Partitioned

/-! ## Registration keeps the partition -/

section Registration

variable {idle : Option TaskHandle} {space : AddressSpaceHandle} {context : TaskContext}

theorem Registers.runnable_iff (hreg : Registers s h space r idle context s')
    (hfree : s.taskHandles h.slot.index = none) (c : TaskHandle) :
    s'.Runnable c ↔ s.Runnable c ∨ c = h := by
  unfold Runnable Registered
  rw [hreg.taskHandles, hreg.taskStates]
  by_cases heq : c.slot.index = h.slot.index
  · rw [heq, Function.update_self, Function.update_self, hfree]
    constructor
    · rintro ⟨hc, -⟩
      exact Or.inr (Option.some_injective _ hc).symm
    · rintro (⟨hc, -⟩ | rfl)
      · cases hc
      · exact ⟨rfl, rfl⟩
  · have hne : c ≠ h := fun hch => heq (congrArg (·.slot.index) hch)
    simp [Function.update_of_ne heq, hne]

theorem Registers.cells (hreg : Registers s h space r idle context s')
    (hi : h.slot.index.toNat < taskArenaCapacity) (hp : s.Partitioned q ex) :
    (∀ i c, s'.taskHandles i = some c → c.slot.index = i ∧ i.toNat < taskArenaCapacity) ∧
    (∀ i, s'.taskHandles i = none → s'.taskStates i = .idle) ∧
    ∀ i c, s'.taskHandles i = some c → s'.taskStates i ≠ .idle := by
  rw [hreg.taskHandles, hreg.taskStates]
  refine ⟨fun i c hc => ?_, fun i hnone => ?_, fun i c hc => ?_⟩ <;>
    by_cases heq : i = h.slot.index
  · subst heq
    rw [Function.update_self] at hc
    cases hc
    exact ⟨rfl, hi⟩
  · rw [Function.update_of_ne heq] at hc
    exact hp.handles i c hc
  · subst heq
    rw [Function.update_self] at hnone
    cases hnone
  · rw [Function.update_of_ne heq] at hnone ⊢
    exact hp.vacant i hnone
  · subst heq
    rw [Function.update_self]
    exact TaskState.noConfusion
  · rw [Function.update_of_ne heq] at hc ⊢
    exact hp.occupied i c hc

/-- No task of a vacant slot is runnable. -/
theorem not_runnable_of_vacant (hfree : s.taskHandles h.slot.index = none) : ¬ s.Runnable h := by
  rintro ⟨hreg, -⟩
  unfold Registered at hreg
  rw [hfree] at hreg
  cases hreg

theorem Partitioned.registers (hp : s.Partitioned q ex)
    (hreg : Registers s h space r s.idle context s') (hfree : s.taskHandles h.slot.index = none)
    (hi : h.slot.index.toNat < taskArenaCapacity) (hr : r.Represents (q ++ [h])) :
    s'.Partitioned (q ++ [h]) ex := by
  obtain ⟨handles, vacant, occupied⟩ := hreg.cells hi hp
  have hready : s'.ready.Represents (q ++ [h]) := by
    rw [hreg.ready]
    exact hr
  exact hp.joins hreg.current hreg.idle hready (not_runnable_of_vacant hfree)
    (hreg.runnable_iff hfree) handles vacant occupied

theorem Partitioned.registersIdle (hp : s.Partitioned q ex)
    (hreg : Registers s h space s.ready (some h) context s')
    (hfree : s.taskHandles h.slot.index = none) (hnone : s.idle = none)
    (hi : h.slot.index.toNat < taskArenaCapacity) : s'.Partitioned q ex := by
  obtain ⟨handles, vacant, occupied⟩ := hreg.cells hi hp
  have hnot := not_runnable_of_vacant hfree
  have hiff := hreg.runnable_iff hfree
  have hready : s'.ready.Represents q := by
    rw [hreg.ready]
    exact hp.ready
  refine ⟨hready, hp.nodup, handles, vacant, occupied, ?_, ?_, ?_, ?_, ?_⟩
  · intro c hc
    obtain ⟨hrun, hq, hex⟩ := hp.current c (hreg.current ▸ hc)
    exact ⟨(hiff c).mpr (Or.inl hrun), hq, hex⟩
  · intro c hc
    rw [hreg.idle] at hc
    obtain rfl := Option.some_injective _ hc
    exact ⟨(hiff h).mpr (Or.inr rfl), fun hin => hnot (hp.queued h hin).1,
      fun hin => hnot (hp.exited h hin)⟩
  · intro c hc
    obtain ⟨hrun, hex⟩ := hp.queued c hc
    exact ⟨(hiff c).mpr (Or.inl hrun), hex⟩
  · exact fun c hc => (hiff c).mpr (Or.inl (hp.exited c hc))
  · intro c hrun
    rw [hreg.current, hreg.idle]
    rcases (hiff c).mp hrun with hrun' | rfl
    · rcases hp.placed c hrun' with hcur | hidle | hplaced
      · exact Or.inl hcur
      · rw [hnone] at hidle
        cases hidle
      · exact Or.inr (Or.inr hplaced)
    · exact Or.inr (Or.inl rfl)

end Registration

end Tyrne.Scheduler
