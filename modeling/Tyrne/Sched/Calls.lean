import Tyrne.Library.Triple
import Tyrne.Sched.Runs

/-!
# Calls without a contract

What the scheduler keeps however it is called: no contract on the callers, no partition of
the tasks, any handles. The ready queue is a queue, and whatever handles it, the running
task, the idle slot and the handle cells hold stay among the handles that are `good`. Only
a registration writes the bindings of a slot.
-/

namespace Tyrne

variable {I : Scheduler → Prop} {E : SchedError → Scheduler → Prop}

theorem readCell_triple {σ ε α : Type} {P : σ → Prop} {E : ε → σ → Prop} {n : ℕ}
    {cells : σ → Index → α} {i : Index} :
    Prog.Triple P (readCell n cells i) (fun a s => P s ∧ a = cells s i) E := by
  intro s hs
  unfold readCell
  dsimp only
  split
  · refine ⟨fun a s' hend => ?_, fun e s' hend => ?_⟩
    · cases hend
      exact ⟨hs, rfl⟩
    · cases hend
  · exact ⟨fun _ _ hend => (nomatch hend), fun _ _ hend => (nomatch hend)⟩

theorem writeCell_triple {σ ε α : Type} {P : σ → Prop} {E : ε → σ → Prop} {n : ℕ}
    {Q : Unit → σ → Prop} {cells : σ → Index → α} {store : (Index → α) → σ → σ} {i : Index}
    {f : α → α}
    (hstore : ∀ s, P s → Q () (store (Function.update (cells s) i (f (cells s i))) s)) :
    Prog.Triple P (writeCell n cells store i f) Q E := by
  intro s hs
  unfold writeCell
  dsimp only
  split
  · refine ⟨fun a s' hend => ?_, fun e s' hend => ?_⟩
    · cases hend
      exact hstore s hs
    · cases hend
  · exact ⟨fun _ _ hend => (nomatch hend), fun _ _ hend => (nomatch hend)⟩

theorem debugAssert_triple [Build] {σ ε : Type} {P : σ → Prop} {E : ε → σ → Prop} {c : Prop}
    [Decidable c] {message : String} :
    Prog.Triple P (debugAssert c message : Prog σ ε Unit) (fun _ => P) E := by
  unfold debugAssert
  exact Prog.Triple.ite (fun _ => Prog.Triple.panic) fun _ => Prog.Triple.pure fun _ hs => hs

namespace SchedQueue

variable {N : ℕ} {ε : Type} {good : TaskHandle → Prop} {h : TaskHandle}

/-- The buffer holds a list of good handles. -/
def Of (good : TaskHandle → Prop) (q : SchedQueue N) : Prop :=
  ∃ l, q.Represents l ∧ ∀ h ∈ l, good h

/-- A full queue is left as it is. -/
theorem enqueue_triple (hN : 2 * N ≤ 2 ^ 64) (hgood : good h) :
    (enqueue h : Prog (SchedQueue N) TaskHandle Unit).Preserves (Of good) := by
  rintro q ⟨l, hl, hall⟩
  rcases hl.fits.lt_or_eq with hroom | hfull
  · obtain ⟨q', hrun, hl'⟩ := hl.enqueue_run hroom hN h
    rw [hrun]
    refine ⟨fun a s' hend => ?_, fun e s' hend => (nomatch hend)⟩
    cases hend
    refine ⟨l ++ [h], hl', fun x hx => ?_⟩
    rcases List.mem_append.mp hx with hx | hx
    · exact hall x hx
    · rw [List.mem_singleton.mp hx]
      exact hgood
  · rw [hl.enqueue_full hfull]
    refine ⟨fun a s' hend => (nomatch hend), fun e s' hend => ?_⟩
    cases hend
    exact ⟨l, hl, hall⟩

theorem dequeue_triple {E : ε → SchedQueue N → Prop} (hN : 2 * N ≤ 2 ^ 64) :
    Prog.Triple (Of good) (dequeue : Prog (SchedQueue N) ε _)
      (fun front q => Of good q ∧ ∀ h, front = some h → good h) E := by
  rintro q ⟨l, hl, hall⟩
  cases l with
  | nil =>
    rw [hl.dequeue_nil]
    refine ⟨fun a s' hend => ?_, fun e s' hend => (nomatch hend)⟩
    cases hend
    exact ⟨⟨[], hl, hall⟩, fun h hcon => nomatch hcon⟩
  | cons x l =>
    obtain ⟨q', hrun, hl'⟩ := hl.dequeue_cons (ε := ε) hN
    rw [hrun]
    refine ⟨fun a s' hend => ?_, fun e s' hend => (nomatch hend)⟩
    cases hend
    refine ⟨⟨l, hl', fun y hy => hall y (List.mem_cons_of_mem x hy)⟩, fun y hy => ?_⟩
    cases hy
    exact hall x List.mem_cons_self

end SchedQueue

namespace Scheduler

/-- What a registration records for the slots. -/
structure Bindings where
  taskHandles : Index → Option TaskHandle
  taskAddressSpaceHandles : Index → Option AddressSpaceHandle
  taskCapTables : Index → Option TablePtr
  taskUserWindows : Index → Option UserAccessWindow

def bindings (s : Scheduler) : Bindings :=
  ⟨s.taskHandles, s.taskAddressSpaceHandles, s.taskCapTables, s.taskUserWindows⟩

/-- The bindings are `b`, only good handles are around, and while no task is current none
is blocked. -/
structure Held (good : TaskHandle → Prop) (b : Bindings) (s : Scheduler) : Prop where
  bindings : s.bindings = b
  ready : s.ready.Of good
  current : ∀ h, s.current = some h → good h
  idle : ∀ h, s.idle = some h → good h
  awake : s.current = none → ∀ i ep, s.taskStates i ≠ .blocked ep

variable {good : TaskHandle → Prop} {b : Bindings} {s : Scheduler} {h : TaskHandle} {i : Index}
  {ep : EndpointHandle}

theorem Held.running (hs : s.Held good b) (hgood : good h) :
    Held good b { s with current := some h } :=
  ⟨hs.bindings, hs.ready, fun _ hh => Option.some.inj hh ▸ hgood, hs.idle, fun hcon => nomatch hcon⟩

theorem not_blocked_ready {states : Index → TaskState} (hstates : ∀ j ep, states j ≠ .blocked ep)
    (i j : Index) (ep : EndpointHandle) : Function.update states i .ready j ≠ .blocked ep := by
  by_cases hj : j = i
  · rw [hj, Function.update_self]
    exact fun hcon => nomatch hcon
  · rw [Function.update_of_ne hj]
    exact hstates j ep

theorem setReady_held (i : Index) : (setTaskState i .ready).Preserves (Held good b) :=
  writeCell_triple fun _ hs => ⟨hs.bindings, hs.ready, hs.current, hs.idle,
    fun hnone => not_blocked_ready (hs.awake hnone) i⟩

/-- Any state, of a task that is about to lose or regain the processor. -/
theorem setTaskState_running (i : Index) (state : TaskState) :
    Prog.Triple (fun s => Held good b { s with current := some h }) (setTaskState i state)
      (fun _ s => Held good b { s with current := some h }) E :=
  writeCell_triple fun _ hs =>
    ⟨hs.bindings, hs.ready, hs.current, hs.idle, fun hcon => nomatch hcon⟩

theorem setCurrent_running : Prog.Triple (fun s => Held good b { s with current := some h })
    (setCurrent (some h)) (fun _ => Held good b) E :=
  Prog.Triple.modify fun _ hs => hs

theorem setContext_held (i : Index) (context : TaskContext) :
    (setContext i context).Preserves (Held good b) :=
  writeCell_triple fun _ hs => ⟨hs.bindings, hs.ready, hs.current, hs.idle, hs.awake⟩

theorem tryEnqueue_held (hgood : good h) : (tryEnqueue h).Preserves (Held good b) := by
  refine Prog.Triple.zoom (SchedQueue.enqueue_triple (by decide) hgood) (fun s hs => hs.ready)
    ?_ ?_
  · intro a s q hs hq
    exact ⟨hs.bindings, hq, hs.current, hs.idle, hs.awake⟩
  · intro e s q hs hq
    exact ⟨hs.bindings, hq, hs.current, hs.idle, hs.awake⟩

theorem enqueueReady_held (hgood : good h) : (enqueueReady h).Preserves (Held good b) :=
  (tryEnqueue_held hgood).expect

theorem dequeueReady_triple {P : Scheduler → Prop} (hready : ∀ s, P s → s.ready.Of good)
    (hstore : ∀ s q, P s → q.Of good → P { s with ready := q }) : Prog.Triple P dequeueReady
      (fun front s => P s ∧ ∀ h, front = some h → good h) E := by
  refine Prog.Triple.zoom (SchedQueue.dequeue_triple (E := fun _ _ => False) (by decide)) hready
    ?_ ?_
  · intro a s q hs hq
    exact ⟨hstore s q hs hq.1, hq.2⟩
  · intro e s q hs hcon
    exact hcon.elim

theorem dequeueReady_held : Prog.Triple (Held good b) dequeueReady
    (fun front s => Held good b s ∧ ∀ h, front = some h → good h) fun _ => Held good b :=
  dequeueReady_triple (fun _ hs => hs.ready)
    fun _ _ hs hq => ⟨hs.bindings, hq, hs.current, hs.idle, hs.awake⟩

theorem dispatchFrom_held : Prog.Triple (fun s => Held good b { s with current := some h })
    (dispatchFrom i h) (fun _ => Held good b) fun _ => Held good b := by
  unfold dispatchFrom
  refine (setTaskState_running _ _).bind fun _ => setCurrent_running.bind fun _ => ?_
  refine (readCell_triple (P := Held good b)).bind fun _ => ?_
  refine (readCell_triple.pre fun _ hs => hs.1).bind fun _ => ?_
  exact Prog.Triple.pure fun _ hs => hs.1

theorem dispatchSome_running : Prog.Triple (fun s => Held good b { s with current := some h })
    (do return some (← dispatchFrom i h) : SchedM (Option Switch)) (fun _ => Held good b)
    fun _ => Held good b :=
  dispatchFrom_held.bind fun _ => Prog.Triple.pure fun _ hs => hs

theorem dispatchSome_held (hgood : good h) :
    (do return some (← dispatchFrom i h) : SchedM (Option Switch)).Preserves (Held good b) :=
  dispatchSome_running.pre fun _ hs => hs.running hgood

/-- The triple of a program that starts by reading the state. -/
theorem get_held {α : Type} {g : Scheduler → SchedM α}
    (hg : ∀ s, Held good b s → (g s).Preserves (Held good b)) :
    (Prog.get >>= g).Preserves (Held good b) := by
  refine Prog.Triple.get_bind fun s hs => ?_
  refine (hg s hs).pre fun t ht => ?_
  rw [ht]
  exact hs

theorem okOr_held {α : Type} {o : Option α} {err : SchedError} :
    Prog.Triple (Held good b) (Prog.okOr o err) (fun a s => Held good b s ∧ o = some a)
      fun _ => Held good b :=
  Prog.Triple.okOr (fun _ _ ho hs => ⟨hs, ho⟩) fun _ _ hs => hs

theorem startPrelude_held : startPrelude.Preserves (Held good b) := by
  unfold startPrelude
  refine dequeueReady_held.bind fun front => ?_
  intro s hs
  obtain ⟨hheld, hfront⟩ := hs
  rw [Prog.get_bind_run]
  cases hnext : front.or s.idle with
  | none => exact Prog.Triple.panic s hheld
  | some n =>
    have hgood : good n := by
      rcases Option.or_eq_some_iff.mp hnext with hn | ⟨-, hn⟩
      · exact hfront n hn
      · exact hheld.idle n hn
    refine Prog.Triple.bind (setReady_held _) (fun _ => ?_) s hheld
    refine (setCurrent_running.pre fun _ hs => hs.running hgood).bind fun _ => ?_
    exact Prog.Triple.pure fun _ hs => hs

theorem yieldPrelude_held : yieldPrelude.Preserves (Held good b) := by
  unfold yieldPrelude
  refine get_held fun s hs => ?_
  refine okOr_held.bind fun c => ?_
  intro s₁ hs₁
  obtain ⟨hheld, hc⟩ := hs₁
  have hgood : good c := hs.current c hc
  have hput : ∀ rest : SchedM (Option Switch), rest.Preserves (Held good b) →
      (if decide (s.idle = some c) = true then rest else enqueueReady c >>= fun _ => rest :
        SchedM (Option Switch)).Preserves (Held good b) := fun rest hrest =>
    Prog.Triple.ite (fun _ => hrest) fun _ => (enqueueReady_held hgood).bind fun _ => hrest
  refine Prog.Triple.bind (setReady_held _) (fun _ => hput _ ?_) s₁ hheld
  refine dequeueReady_held.bind fun front => ?_
  intro s₂ hs₂
  obtain ⟨hheld₂, hfront⟩ := hs₂
  rw [Prog.get_bind_run]
  have hstay : (pure none : SchedM (Option Switch)).Preserves (Held good b) :=
    Prog.Triple.pure fun _ hs => hs
  cases front with
  | some n =>
    exact Prog.Triple.ite (fun _ => dispatchSome_held (hfront n rfl)) (fun _ => hstay) s₂ hheld₂
  | none =>
    dsimp only
    cases hidle : s₂.idle.filter (· ≠ c) with
    | none => exact hstay s₂ hheld₂
    | some n =>
      have hn : s₂.idle = some n := (Option.filter_eq_some_iff.mp hidle).1
      exact dispatchSome_held (hheld₂.idle n hn) s₂ hheld₂

section Build

variable [Build]

theorem unblockScan_held (hcells : ∀ i h, b.taskHandles i = some h → good h)
    (indices : List Index) :
    (unblockScan ep indices).Preserves (Held good b) := by
  induction indices with
  | nil => exact Prog.Triple.pure fun _ hs => hs
  | cons i rest ih =>
    unfold unblockScan
    refine (readCell_triple (P := Held good b)).bind fun state => ?_
    refine Prog.Triple.ite (fun _ => ?_) fun _ => ih.pre fun _ hs => hs.1
    refine (readCell_triple.pre fun _ hs => hs.1).bind fun handle => ?_
    refine debugAssert_triple.bind fun _ => ?_
    cases handle with
    | none => exact ih.pre fun _ hs => hs.1
    | some h =>
      intro s hs
      obtain ⟨hheld, hh⟩ := hs
      have hcell : b.taskHandles i = some h := by
        rw [← hheld.bindings]
        exact hh.symm
      exact Prog.Triple.bind (setReady_held _)
        (fun _ => enqueueReady_held (hcells i h hcell)) s hheld

theorem unblockReceiverOn_held (hcells : ∀ i h, b.taskHandles i = some h → good h) :
    (unblockReceiverOn ep).Preserves (Held good b) := unblockScan_held hcells _

theorem blockCurrent_held : (blockCurrent ep).Preserves (Held good b) := by
  unfold blockCurrent
  refine get_held fun s hs => ?_
  refine okOr_held.bind fun c => ?_
  intro s₁ hs₁
  obtain ⟨hheld, hc⟩ := hs₁
  have hgood : good c := hs.current c hc
  refine Prog.Triple.bind (readCell_triple (P := Held good b)) (fun prior => ?_) s₁ hheld
  refine Prog.Triple.bind (debugAssert_triple.pre fun _ hs => hs.1) fun _ => ?_
  -- until a task is current again, what holds is what would hold if the blocked one were
  refine Prog.Triple.bind (Q := fun _ s => Held good b { s with current := some c })
    ((setTaskState_running _ _).pre fun _ hs => hs.running hgood) fun _ => ?_
  refine Prog.Triple.bind (Q := fun _ s => Held good b { s with current := some c })
    (Prog.Triple.modify fun _ hs => hs) fun _ => ?_
  refine (dequeueReady_triple (fun _ hs => hs.ready) fun _ _ hs hq =>
    ⟨hs.bindings, hq, hs.current, hs.idle, hs.awake⟩).bind fun front => ?_
  intro s₂ hs₂
  obtain ⟨hheld₂, hfront⟩ := hs₂
  rw [Prog.get_bind_run]
  cases hnext : front.or (s₂.idle.filter (· ≠ c)) with
  | some n =>
    have hn : good n := by
      rcases Option.or_eq_some_iff.mp hnext with hn | ⟨-, hn⟩
      · exact hfront n hn
      · exact hheld₂.idle n (Option.filter_eq_some_iff.mp hn).1
    exact dispatchSome_running s₂ (hheld₂.running hn)
  | none =>
    refine Prog.Triple.bind (setTaskState_running _ _) (fun _ => ?_) s₂ hheld₂
    exact setCurrent_running.bind fun _ => Prog.Triple.pure fun _ hs => hs

end Build

/-! ## Registration -/

namespace Bindings

/-- The bindings after a kernel task was registered. -/
def addKernel (b : Bindings) (h : TaskHandle) (space : AddressSpaceHandle) : Bindings where
  taskHandles := Function.update b.taskHandles h.slot.index (some h)
  taskAddressSpaceHandles :=
    Function.update b.taskAddressSpaceHandles h.slot.index (some space)
  taskCapTables := b.taskCapTables
  taskUserWindows := b.taskUserWindows

/-- The bindings after a user task was registered. -/
def addUser (b : Bindings) (h : TaskHandle) (space : AddressSpaceHandle)
    (capTable : Option TablePtr) (window : UserAccessWindow) : Bindings :=
  { b.addKernel h space with
    taskCapTables := Function.update b.taskCapTables h.slot.index capTable
    taskUserWindows := Function.update b.taskUserWindows h.slot.index (some window) }

end Bindings

variable {space : AddressSpaceHandle} {entry stackTop userEntry userSp kernelStackTop : ℕ}
  {capTable : TablePtr}

theorem setTaskHandle_held : Prog.Triple (Held good b) (setTaskHandle i h)
    (fun _ => Held good
      { b with taskHandles := Function.update b.taskHandles i (some h) }) E := by
  refine writeCell_triple fun s hs => ?_
  obtain ⟨rfl, hready, hcurrent, hidle, hawake⟩ := hs
  exact ⟨rfl, hready, hcurrent, hidle, hawake⟩

theorem setAddressSpaceHandle_held : Prog.Triple (Held good b) (setAddressSpaceHandle i space)
    (fun _ => Held good { b with
      taskAddressSpaceHandles := Function.update b.taskAddressSpaceHandles i (some space) })
    E := by
  refine writeCell_triple fun s hs => ?_
  obtain ⟨rfl, hready, hcurrent, hidle, hawake⟩ := hs
  exact ⟨rfl, hready, hcurrent, hidle, hawake⟩

theorem setCapTable_held {table : Option TablePtr} : Prog.Triple (Held good b) (setCapTable i table)
    (fun _ => Held good
      { b with taskCapTables := Function.update b.taskCapTables i table }) E := by
  refine writeCell_triple fun s hs => ?_
  obtain ⟨rfl, hready, hcurrent, hidle, hawake⟩ := hs
  exact ⟨rfl, hready, hcurrent, hidle, hawake⟩

theorem setUserWindow_held {window : UserAccessWindow} :
    Prog.Triple (Held good b) (setUserWindow i window)
      (fun _ => Held good
        { b with taskUserWindows := Function.update b.taskUserWindows i (some window) }) E := by
  refine writeCell_triple fun s hs => ?_
  obtain ⟨rfl, hready, hcurrent, hidle, hawake⟩ := hs
  exact ⟨rfl, hready, hcurrent, hidle, hawake⟩

theorem addTask_held (hgood : good h) :
    Prog.Triple (Held good b) (addTask h space entry stackTop)
      (fun _ => Held good (b.addKernel h space)) fun _ => Held good b := by
  unfold addTask
  refine (setContext_held _ _).bind fun _ => (tryEnqueue_held hgood).bind fun _ => ?_
  refine (setReady_held _).bind fun _ => setTaskHandle_held.bind fun _ => ?_
  exact setAddressSpaceHandle_held

theorem registerIdle_held (hgood : good h) :
    Prog.Triple (Held good b) (registerIdle h space entry stackTop)
      (fun _ => Held good (b.addKernel h space)) fun _ => Held good b := by
  unfold registerIdle
  intro s hs
  rw [Prog.get_bind_run]
  refine Prog.Triple.ite (fun _ => ?_) (fun _ => Prog.Triple.panic) s hs
  refine (setContext_held _ _).bind fun _ => (setReady_held _).bind fun _ => ?_
  refine setTaskHandle_held.bind fun _ => setAddressSpaceHandle_held.bind fun _ => ?_
  refine Prog.Triple.modify fun t ht =>
    ⟨ht.bindings, ht.ready, ht.current, fun h' hh => ?_, ht.awake⟩
  cases hh
  exact hgood

theorem addUserTask_held [Build] (hgood : good h) :
    Prog.Triple (Held good b) (addUserTask h space userEntry userSp kernelStackTop capTable)
      (fun _ => Held good (b.addUser h space (if capTable ≠ 0 then some capTable else none)
        ⟨userEntry, userSp - userEntry⟩)) fun _ => Held good b := by
  unfold addUserTask
  refine debugAssert_triple.bind fun _ => debugAssert_triple.bind fun _ => ?_
  refine debugAssert_triple.bind fun _ => (setContext_held _ _).bind fun _ => ?_
  refine (tryEnqueue_held hgood).bind fun _ => (setReady_held _).bind fun _ => ?_
  refine setTaskHandle_held.bind fun _ => setAddressSpaceHandle_held.bind fun _ => ?_
  exact setCapTable_held.bind fun _ => setUserWindow_held

end Scheduler

namespace Kernel

open Scheduler IpcSystem

/-- What the scheduler holds, with an IPC state that is sound. -/
structure Held [Build] (good : TaskHandle → Prop) (b : Bindings) (k : Kernel) : Prop where
  sched : k.sched.Held good b
  ipc : k.ipc.Sound

variable [Build] {good : TaskHandle → Prop} {b : Bindings} {table : TablePtr}

theorem onSched_triple {α : Type} {m : SchedM α} {b' : Bindings}
    (hm : Prog.Triple (Scheduler.Held good b) m (fun _ => Scheduler.Held good b')
      fun _ => Scheduler.Held good b) :
    Prog.Triple (Held good b) (onSched m) (fun _ => Held good b') fun _ => Held good b := by
  refine Prog.Triple.zoom hm (fun k hk => hk.sched) ?_ ?_
  · intro a k s hk hs
    exact ⟨hs, hk.ipc⟩
  · intro e k s hk hs
    exact ⟨hs, hk.ipc⟩

theorem onSched_held {α : Type} {m : SchedM α} (hm : m.Preserves (Scheduler.Held good b)) :
    (onSched m).Preserves (Held good b) := onSched_triple hm

theorem activate_held {target : Option AddressSpaceHandle} :
    (activate target).Preserves (Held good b) :=
  Prog.Triple.modify fun _ hk => ⟨hk.sched, hk.ipc⟩

theorem setRunning_held {running : Running} : (setRunning running).Preserves (Held good b) :=
  Prog.Triple.modify fun _ hk => ⟨hk.sched, hk.ipc⟩

theorem readContext_held {i : Index} :
    (onSched (readCell taskArenaCapacity Scheduler.contexts i)).Preserves (Held good b) :=
  onSched_held (readCell_triple.post (fun _ _ hs => hs.1) fun _ _ hs => hs)

theorem resolveEpCap_held {epCap : CapHandle} :
    (resolveEpCap table epCap).Preserves (Held good b) := by
  intro k hk
  rcases resolveEpCap_run k table epCap with ⟨cap, ep, -, -, hrun⟩ | ⟨err, hrun⟩
  · rw [hrun]
    refine ⟨fun a k' hend => ?_, fun e k' hend => (nomatch hend)⟩
    cases hend
    exact hk
  · rw [hrun]
    refine ⟨fun a k' hend => (nomatch hend), fun e k' hend => ?_⟩
    cases hend
    exact hk

/-- An IPC call whose ends keep the IPC state sound. -/
theorem onIpc_held {α : Type} {m : IpcM α}
    (hok : ∀ (k : Kernel) a call, k.ipc.Sound → m.run (k.ipc.call table) = .ok a call →
      (k.withCall table call).ipc.Sound)
    (herr : ∀ (k : Kernel) e call, k.ipc.Sound → m.run (k.ipc.call table) = .err e call →
      (k.withCall table call).ipc.Sound) :
    (onIpc table m).Preserves (Held good b) := by
  intro k hk
  cases hrun : m.run (k.ipc.call table) with
  | ok a call =>
    rw [onIpc_ok hrun]
    refine ⟨fun a' k' hend => ?_, fun e k' hend => (nomatch hend)⟩
    cases hend
    exact ⟨hk.sched, hok k a call hk.ipc hrun⟩
  | err e call =>
    have hend : (onIpc table m).run k = .err (.ipc e) (k.withCall table call) := Prog.zoom_err hrun
    rw [hend]
    refine ⟨fun a' k' hend => (nomatch hend), fun e' k' hend => ?_⟩
    cases hend
    exact ⟨hk.sched, herr k e call hk.ipc hrun⟩
  | panic p =>
    have hend : (onIpc table m).run k = .panic p := Prog.zoom_panic hrun
    rw [hend]
    exact ⟨fun _ _ hend => (nomatch hend), fun _ _ hend => (nomatch hend)⟩

theorem sound_refused {k : Kernel} {queues : IpcQueues} (hsound : k.ipc.Sound)
    (hq : Refused k.ipc.epArena k.ipc.queues queues) :
    (k.withCall table { k.ipc.call table with queues }).ipc.Sound := by
  have hsame : (k.withCall table { k.ipc.call table with queues }).ipc =
      (k.withQueues queues).ipc := endCall_queues k.ipc table queues
  rw [hsame]
  exact sound_withQueues hsound hq

theorem ipcSend_held {epCap : CapHandle} {msg : Message} {transfer : Option CapHandle} :
    (onIpc table (ipcSend epCap msg transfer)).Preserves (Held good b) := by
  apply onIpc_held
  · intro k outcome call hsound hrun
    have hend := ipcSend_end (s := k.ipc.call table) (hsound.tables table) epCap msg transfer
    rw [hrun] at hend
    exact sound_sent hsound hend
  · intro k e call hsound hrun
    have hend := ipcSend_end (s := k.ipc.call table) (hsound.tables table) epCap msg transfer
    rw [hrun] at hend
    cases hend with
    | refused hq => exact sound_refused hsound hq

theorem ipcRecv_held {epCap : CapHandle} :
    (onIpc table (ipcRecv epCap)).Preserves (Held good b) := by
  apply onIpc_held
  · intro k outcome call hsound hrun
    have hend := ipcRecv_end (s := k.ipc.call table) (hsound.tables table) epCap
    rw [hrun] at hend
    exact sound_received hsound hend
  · intro k e call hsound hrun
    have hend := ipcRecv_end (s := k.ipc.call table) (hsound.tables table) epCap
    rw [hrun] at hend
    cases hend with
    | refused hq _ => exact sound_refused hsound hq

theorem ipcCancelRecv_held {epCap : CapHandle} :
    (onIpc table (ipcCancelRecv epCap)).Preserves (Held good b) := by
  apply onIpc_held
  · intro k outcome call hsound hrun
    have hend := ipcCancelRecv_end (k.ipc.call table) epCap
    rw [hrun] at hend
    have hdrained : Drained (⟨k.ipc, .cancelRecv table epCap, .ok .done,
        (k.withCall table call).ipc⟩ : IpcSystem.Event TablePtr) := trivial
    exact hsound.effect hdrained (.cancelRecv hend)
  · intro k e call hsound hrun
    have hend := ipcCancelRecv_end (k.ipc.call table) epCap
    rw [hrun] at hend
    cases hend with
    | refused => exact sound_refused hsound .early

/-! ## The bridge -/

theorem switchTo_held {switch : Switch} {call : Suspended} :
    (switchTo switch call).Preserves (Held good b) := by
  unfold switchTo
  refine debugAssert_triple.bind fun _ => activate_held.bind fun _ => ?_
  refine readContext_held.bind fun _ => ?_
  exact (onSched_held (setContext_held _ _)).bind fun _ => setRunning_held

theorem runDispatched_held {i : Index} : (runDispatched i).Preserves (Held good b) := by
  unfold runDispatched
  refine Prog.Triple.bind (Q := fun _ => Held good b) ?_ fun _ => ?_
  · exact onSched_held (readCell_triple.post (fun _ _ hs => hs.1) fun _ _ hs => hs)
  exact activate_held.bind fun _ => readContext_held.bind fun _ => setRunning_held

theorem start_held : start.Preserves (Held good b) :=
  (onSched_held startPrelude_held).bind fun _ => runDispatched_held

theorem yieldNow_held {call : Suspended} : (yieldNow call).Preserves (Held good b) := by
  unfold yieldNow
  refine (onSched_held yieldPrelude_held).bind fun switch => ?_
  cases switch with
  | none => exact Prog.Triple.pure fun _ hk => hk
  | some switch => exact switchTo_held.bind fun _ => Prog.Triple.pure fun _ hk => hk

theorem ipcSendAndYield_held (hcells : ∀ i h, b.taskHandles i = some h → good h)
    {epCap : CapHandle} {msg : Message} {transfer : Option CapHandle} :
    (ipcSendAndYield table epCap msg transfer).Preserves (Held good b) := by
  unfold ipcSendAndYield
  refine resolveEpCap_held.bind fun ep => ipcSend_held.bind fun outcome => ?_
  refine Prog.Triple.ite (fun _ => ?_) fun _ => Prog.Triple.pure fun _ hk => hk
  refine (onSched_held (unblockReceiverOn_held hcells)).bind fun _ => ?_
  exact yieldNow_held.bind fun _ => Prog.Triple.pure fun _ hk => hk

theorem blockAndYield_held {epCap : CapHandle} {ep : EndpointHandle} :
    (blockAndYield table epCap ep).Preserves (Held good b) := by
  unfold blockAndYield
  refine (onSched_held blockCurrent_held).bind fun switch => ?_
  cases switch with
  | some switch => exact switchTo_held.bind fun _ => Prog.Triple.pure fun _ hk => hk
  | none =>
    refine Prog.Triple.bind (Q := fun _ => Held good b)
      (ipcCancelRecv_held.attempt (fun _ _ hk => hk) fun _ _ hk => hk) fun result => ?_
    exact debugAssert_triple.bind fun _ => Prog.Triple.fail fun _ hk => hk

theorem ipcRecvAndYield_held {epCap : CapHandle} :
    (ipcRecvAndYield table epCap).Preserves (Held good b) := by
  unfold ipcRecvAndYield
  intro k hk
  rw [Prog.get_bind_run]
  have hcurrent : (Prog.require (k.sched.current ≠ none) .noCurrentTask : KernelM _).Preserves
      (Held good b) := Prog.Triple.require (fun _ _ hk => hk) fun _ _ hk => hk
  refine hcurrent.bind (fun _ => ?_) k hk
  refine resolveEpCap_held.bind fun ep => ipcRecv_held.bind fun outcome => ?_
  exact Prog.Triple.ite (fun _ => Prog.Triple.pure fun _ hk => hk) fun _ => blockAndYield_held

theorem continueWith_held (context : TaskContext) :
    (continueWith context).Preserves (Held good b) := by
  cases context with
  | kernelEntry => exact Prog.Triple.pure fun _ hk => hk
  | userEntry => exact Prog.Triple.pure fun _ hk => hk
  | suspended call =>
    cases call with
    | recvAndYield table epCap =>
      refine Prog.Triple.bind (Q := fun _ => Held good b) ?_
        fun _ => Prog.Triple.pure fun _ hk => hk
      refine ipcRecv_held.bind fun outcome => ?_
      cases outcome with
      | pending => exact Prog.Triple.fail fun _ hk => hk
      | received => exact Prog.Triple.pure fun _ hk => hk
    | yieldNow => exact Prog.Triple.pure fun _ hk => hk
    | taskYield => exact Prog.Triple.pure fun _ hk => hk
    | sendAndYield => exact Prog.Triple.pure fun _ hk => hk

/-- What the operation records when it is a registration that succeeds. -/
def bound (op : KernelOp) (b : Bindings) : Bindings :=
  match op with
  | .addTask h space _ _ => b.addKernel h space
  | .addUserTask h space userEntry userSp _ capTable =>
    b.addUser h space (if capTable ≠ 0 then some capTable else none)
      ⟨userEntry, userSp - userEntry⟩
  | .registerIdle h space _ _ => b.addKernel h space
  | _ => b

/-- Every call records what it registers, and holds only good handles. -/
theorem exec_held (hcells : ∀ i h, b.taskHandles i = some h → good h) {op : KernelOp}
    (hgood : ∀ h space, op.registration = some (h, space) → good h) :
    Prog.Triple (Held good b) (exec op) (fun _ => Held good (bound op b))
      fun _ => Held good b := by
  cases op with
  | addTask =>
    exact (onSched_triple (addTask_held (hgood _ _ rfl))).bind fun _ =>
      Prog.Triple.pure fun _ hk => hk
  | addUserTask =>
    exact (onSched_triple (addUserTask_held (hgood _ _ rfl))).bind fun _ =>
      Prog.Triple.pure fun _ hk => hk
  | registerIdle =>
    exact (onSched_triple (registerIdle_held (hgood _ _ rfl))).bind fun _ =>
      Prog.Triple.pure fun _ hk => hk
  | start => exact start_held.bind fun _ => Prog.Triple.pure fun _ hk => hk
  | taskExit => exact start_held.bind fun _ => Prog.Triple.pure fun _ hk => hk
  | yieldNow => exact yieldNow_held.bind fun _ => Prog.Triple.pure fun _ hk => hk
  | sendAndYield =>
    exact (ipcSendAndYield_held hcells).bind fun _ => Prog.Triple.pure fun _ hk => hk
  | recvAndYield => exact ipcRecvAndYield_held.bind fun _ => Prog.Triple.pure fun _ hk => hk
  | resume =>
    intro k hk
    unfold exec
    rw [Prog.get_bind_run]
    cases k.core.running with
    | resuming context =>
      exact setRunning_held.bind (fun _ => continueWith_held context) k hk
    | boot => exact Prog.Triple.panic k hk
    | task => exact Prog.Triple.panic k hk

/-! ## States of any calls -/

variable {k : Kernel}

/-- The ready queue is a queue, the IPC state is sound, and no task is blocked while none
is current. -/
def Ordered (k : Kernel) : Prop := ∃ b, k.Held (fun _ => True) b

theorem Ordered.queue (hk : k.Ordered) : ∃ q, k.sched.ready.Represents q := by
  obtain ⟨b, hheld⟩ := hk
  obtain ⟨q, hq, -⟩ := hheld.sched.ready
  exact ⟨q, hq⟩

theorem Ordered.awake (hk : k.Ordered) (hnone : k.sched.current = none) (i : Index)
    (ep : EndpointHandle) : k.sched.taskStates i ≠ .blocked ep := by
  obtain ⟨b, hheld⟩ := hk
  exact hheld.sched.awake hnone i ep

theorem Ordered.sound (hk : k.Ordered) : k.ipc.Sound := by
  obtain ⟨b, hheld⟩ := hk
  exact hheld.ipc

theorem boot_held {good : TaskHandle → Prop} {ipc : IpcSystem TablePtr} (hsound : ipc.Sound) :
    (boot ipc).Held good Scheduler.new.bindings where
  sched := ⟨rfl, ⟨[], SchedQueue.new_represents (by decide), fun _ hh => (nomatch hh)⟩,
    fun _ hcon => (nomatch hcon), fun _ hcon => (nomatch hcon), fun _ _ _ hcon => (nomatch hcon)⟩
  ipc := hsound

/-- Any call leaves the queue a queue and the IPC state sound. -/
theorem exec_ordered (op : KernelOp) : (exec op).Preserves Ordered := by
  rintro k ⟨b, hheld⟩
  have hexec : Prog.Triple (Held (fun _ => True) b) (exec op) _ _ :=
    exec_held (fun _ _ _ => trivial) fun _ _ _ => trivial
  exact hexec.post (fun _ _ hk => ⟨_, hk⟩) (fun _ _ hk => ⟨b, hk⟩) k hheld

end Kernel

end Tyrne
