import Tyrne.Ipc.Conservation
import Tyrne.Sched.Kernel
import Tyrne.Sched.Partition

/-!
# Runs of the scheduled kernel

A run starts before the first dispatch, registers tasks, starts the scheduler and then
takes the bridge calls of whatever task is running, in any order. `Effect` lists what one
such operation can do to a kernel whose tasks are partitioned and whose IPC state is
sound; every operation that keeps the scheduler's calling contract has one of these
effects, so none panics.
-/

namespace Tyrne

open Scheduler IpcSystem IpcQueues

variable {k k' : Kernel} {q q' ex ex' rest : List TaskHandle} {h c n : TaskHandle}
  {ep : EndpointHandle} {op : KernelOp} {table : TablePtr} {epCap : CapHandle}

/-! ## The calling contract -/

/-- The slot of the handle exists and is not registered. -/
def Kernel.Vacant (k : Kernel) (handle : TaskHandle) : Prop :=
  handle.slot.index.toNat < taskArenaCapacity ∧
    k.sched.taskHandles handle.slot.index = none

/-- Something is ready, or an idle task is registered. -/
def Kernel.CanDispatch (k : Kernel) : Prop :=
  k.sched.ready.isEmpty = false ∨ k.sched.idle ≠ none

/-- What a caller has to respect: a slot is registered once, idle is registered once and
only yields, the stacks and the table of a user task are valid, and the first dispatch
and an exit leave something to run. -/
def KernelOp.Disciplined (op : KernelOp) (k : Kernel) : Prop :=
  match op with
  | .addTask handle .. => k.Vacant handle
  | .addUserTask handle _ _ userSp kernelStackTop capTable =>
    k.Vacant handle ∧ (kernelStackTop ≠ 0 ∧ kernelStackTop % 16 = 0) ∧ userSp % 16 = 0 ∧
      capTable ≠ 0
  | .registerIdle handle .. => k.Vacant handle ∧ k.sched.idle = none
  | .start => k.CanDispatch
  | .resume => True
  | .yieldNow => True
  | .sendAndYield .. => k.sched.current ≠ k.sched.idle
  | .recvAndYield .. => k.sched.current ≠ k.sched.idle
  | .taskExit => k.CanDispatch ∧ k.sched.current ≠ k.sched.idle

/-- The task that is registered, and its address space. -/
def KernelOp.registration : KernelOp → Option (TaskHandle × AddressSpaceHandle)
  | .addTask handle addressSpaceHandle _ _ => some (handle, addressSpaceHandle)
  | .addUserTask handle addressSpaceHandle _ _ _ _ => some (handle, addressSpaceHandle)
  | .registerIdle handle addressSpaceHandle _ _ => some (handle, addressSpaceHandle)
  | _ => none

/-- The table of an IPC call. -/
def KernelOp.callerTable : KernelOp → Option TablePtr
  | .sendAndYield table _ _ _ => some table
  | .recvAndYield table _ => some table
  | _ => none

/-- One operation of a run, with the states before and after it. -/
structure KernelEvent where
  before : Kernel
  op : KernelOp
  reply : Except SchedError KernelReply
  after : Kernel

/-- An operation that could be invoked and keeps the calling contract has returned or
switched. -/
structure KernelStep [Build] (k : Kernel) (ev : KernelEvent) (k' : Kernel) : Prop where
  before : ev.before = k
  after : ev.after = k'
  enabled : ev.op.Enabled k.core.running
  disciplined : ev.op.Disciplined k
  exec : (Kernel.exec ev.op).run k = .returned ev.reply k'

namespace Kernel

/-- The invariant of a run: the tasks are partitioned, the IPC state is sound, and a task
is current exactly after the first dispatch. -/
structure Inv [Build] (k : Kernel) (q ex : List TaskHandle) : Prop where
  part : k.sched.Partitioned q ex
  sound : k.ipc.Sound
  current_none : k.core.running = .boot ↔ k.sched.current = none

/-! ## Effects -/

/-- The kernel after the switch window. -/
def switched (k : Kernel) (switch : Switch) (call : Suspended) : Kernel where
  sched := { k.sched with
    contexts := Function.update k.sched.contexts switch.currentIdx (.suspended call) }
  core := ⟨.resuming (k.sched.contexts switch.nextIdx), switch.nextAs.or k.core.activated⟩
  ipc := k.ipc

/-- The kernel after the dispatch tail. -/
def dispatched (k : Kernel) (nextIdx : Index) : Kernel where
  sched := k.sched
  core := ⟨.resuming (k.sched.contexts nextIdx),
    (k.sched.taskAddressSpaceHandles nextIdx).or k.core.activated⟩
  ipc := k.ipc

/-- The switch from the task `c` to the task `n`. -/
def between (s : Scheduler) (c n : TaskHandle) : Switch :=
  ⟨c.slot.index, n.slot.index, s.handover c.slot.index n.slot.index⟩

/-- How a yield of the task `c` ends, with the queue it leaves. -/
inductive Yields (k : Kernel) (q : List TaskHandle) (c : TaskHandle) (call : Suspended) :
    Exit Unit → Kernel → List TaskHandle → Prop
  | stays {r : SchedQueue taskArenaCapacity} : q = [] → r.Represents [] →
      Yields k q c call (.returned ()) { k with sched := { k.sched with ready := r } } []
  | switches {n : TaskHandle} {rest : List TaskHandle} {r : SchedQueue taskArenaCapacity} :
      (if k.sched.idle = some c then q else q ++ [c]) = n :: rest → n ∈ q →
      r.Represents rest → Yields k q c call .switched
        (switched { k with sched := { k.sched with ready := r, current := some n } }
          (between k.sched c n) call) rest

/-- How waking the receiver of `ep` ends, with the queue it leaves. -/
inductive Unblocks (s : Scheduler) (q : List TaskHandle) (ep : EndpointHandle) :
    Scheduler → List TaskHandle → Prop
  | nobody : (∀ i, s.taskStates i ≠ .blocked ep) → Unblocks s q ep s q
  | woken {i : Index} {h : TaskHandle} {r : SchedQueue taskArenaCapacity} :
      s.taskStates i = .blocked ep → s.taskHandles i = some h → r.Represents (q ++ [h]) →
      Unblocks s q ep { s with
        ready := r
        taskStates := Function.update s.taskStates i .ready } (q ++ [h])

/-- The kernel after `c` has blocked on `ep` and `n` was dispatched. -/
def blockedOn (k : Kernel) (r : SchedQueue taskArenaCapacity) (c n : TaskHandle)
    (ep : EndpointHandle) (call : Suspended) : Kernel :=
  switched { k with sched := { k.sched with
    ready := r
    taskStates := Function.update k.sched.taskStates c.slot.index (.blocked ep)
    current := some n } } (between k.sched c n) call

/-- The reply of a context that had nothing left to do but to return. -/
def entryReply : TaskContext → Option KernelReply
  | .kernelEntry _ _ => some .entered
  | .userEntry _ _ _ => some .entered
  | .suspended .yieldNow => some .yielded
  | .suspended .taskYield => some .yielded
  | .suspended (.sendAndYield outcome) => some (.sent outcome)
  | .suspended (.recvAndYield _ _) => none

/-- The kernel once the restored context runs. -/
def resumed (k : Kernel) : Kernel := { k with core := { k.core with running := .task } }

/-- The kernel after an IPC call on the table at `table`. -/
def withCall (k : Kernel) (table : TablePtr) (call : IpcCall) : Kernel :=
  { k with ipc := k.ipc.endCall table call }

def withQueues (k : Kernel) (queues : IpcQueues) : Kernel :=
  { k with ipc := { k.ipc with queues } }

variable [Build]

/-- What an operation can do, with the ready queue and the exited tasks it leaves. -/
inductive Effect (k : Kernel) (q ex : List TaskHandle) :
    KernelOp → Except SchedError KernelReply → Kernel → List TaskHandle → List TaskHandle → Prop
  | joined {op : KernelOp} {h : TaskHandle} {space : AddressSpaceHandle} {context : TaskContext}
      {s' : Scheduler} {r : SchedQueue taskArenaCapacity} : op.registration = some (h, space) →
      k.Vacant h → Registers k.sched h space r k.sched.idle context s' →
      (entryReply context).isSome →
      r.Represents (q ++ [h]) →
      Effect k q ex op (.ok .registered) { k with sched := s' } (q ++ [h]) ex
  | idled {op : KernelOp} {h : TaskHandle} {space : AddressSpaceHandle} {context : TaskContext}
      {s' : Scheduler} : op.registration = some (h, space) → k.Vacant h → k.sched.idle = none →
      Registers k.sched h space k.sched.ready (some h) context s' → (entryReply context).isSome →
      Effect k q ex op (.ok .registered) { k with sched := s' } q ex
  | started {n : TaskHandle} {rest : List TaskHandle} {r : SchedQueue taskArenaCapacity} :
      k.sched.current = none → Picks k.sched.idle q n rest → r.Represents rest →
      Effect k q ex .start (.ok .switched)
        (dispatched { k with sched := { k.sched with ready := r, current := some n } }
          n.slot.index) rest ex
  | exited {c n : TaskHandle} {rest : List TaskHandle} {r : SchedQueue taskArenaCapacity} :
      k.sched.current = some c → k.sched.idle ≠ some c → Picks k.sched.idle q n rest →
      r.Represents rest → Effect k q ex .taskExit (.ok .switched)
        (dispatched { k with sched := { k.sched with ready := r, current := some n } }
          n.slot.index) rest (ex ++ [c])
  | continued {context : TaskContext} {reply : KernelReply} :
      k.core.running = .resuming context → entryReply context = some reply →
      Effect k q ex .resume (.ok reply) k.resumed q ex
  | collected {table : TablePtr} {epCap : CapHandle} {msg : Message}
      {cap : Option CapHandle} {call : IpcCall} :
      k.core.running = .resuming (.suspended (.recvAndYield table epCap)) →
      RecvEnd (k.ipc.call table) epCap (.ok (.received msg cap) call) →
      Effect k q ex .resume (.ok (.received (.received msg cap)))
        (k.resumed.withCall table call) q ex
  | missed {table : TablePtr} {epCap : CapHandle} {call : IpcCall} :
      k.core.running = .resuming (.suspended (.recvAndYield table epCap)) →
      RecvEnd (k.ipc.call table) epCap (.ok .pending call) →
      Effect k q ex .resume (.error (.ipc .pendingAfterResume))
        (k.resumed.withCall table call) q ex
  | collectRefused {table : TablePtr} {epCap : CapHandle} {err : IpcError} {queues : IpcQueues} :
      k.core.running = .resuming (.suspended (.recvAndYield table epCap)) →
      RecvEnd (k.ipc.call table) epCap (.err err { k.ipc.call table with queues }) →
      Refused k.ipc.epArena k.ipc.queues queues →
      Effect k q ex .resume (.error (.ipc err)) (k.resumed.withQueues queues) q ex
  | yielded {c : TaskHandle} {e : Exit Unit} {k' : Kernel} {q' : List TaskHandle} :
      k.sched.current = some c → Yields k q c .yieldNow e k' q' →
      Effect k q ex .yieldNow (.ok (e.reply fun _ => .yielded)) k' q' ex
  | refused {op : KernelOp} {err : SchedError} {queues : IpcQueues} :
      op.callerTable.isSome → Refused k.ipc.epArena k.ipc.queues queues →
      Effect k q ex op (.error err) (k.withQueues queues) q ex
  | enqueued {table : TablePtr} {epCap : CapHandle} {msg : Message}
      {transfer : Option CapHandle} {call : IpcCall} :
      SendEnd (k.ipc.call table) epCap msg transfer (.ok .enqueued call) →
      Effect k q ex (.sendAndYield table epCap msg transfer) (.ok (.sent .enqueued))
        (k.withCall table call) q ex
  | delivered {c : TaskHandle} {ep : EndpointHandle} {table : TablePtr} {epCap : CapHandle}
      {msg : Message} {transfer : Option CapHandle} {call : IpcCall} {s' : Scheduler}
      {e : Exit Unit} {k' : Kernel} {q₁ q' : List TaskHandle} :
      k.sched.current = some c → Targets (k.ipc.tables table) epCap .send ep →
      SendEnd (k.ipc.call table) epCap msg transfer (.ok .delivered call) →
      Unblocks k.sched q ep s' q₁ →
      Yields { k.withCall table call with sched := s' } q₁ c (.sendAndYield .delivered) e k' q' →
      Effect k q ex (.sendAndYield table epCap msg transfer)
        (.ok (e.reply fun _ => .sent .delivered)) k' q' ex
  | received {table : TablePtr} {epCap : CapHandle} {msg : Message} {cap : Option CapHandle}
      {call : IpcCall} :
      RecvEnd (k.ipc.call table) epCap (.ok (.received msg cap) call) →
      Effect k q ex (.recvAndYield table epCap) (.ok (.received (.received msg cap)))
        (k.withCall table call) q ex
  | blocked {c n : TaskHandle} {ep : EndpointHandle} {table : TablePtr} {epCap : CapHandle}
      {call : IpcCall} {rest : List TaskHandle} {r : SchedQueue taskArenaCapacity} :
      k.sched.current = some c → k.sched.idle ≠ some c →
      Targets (k.ipc.tables table) epCap .recv ep →
      RecvEnd (k.ipc.call table) epCap (.ok .pending call) →
      Picks k.sched.idle q n rest → n ≠ c → r.Represents rest →
      Effect k q ex (.recvAndYield table epCap) (.ok .switched)
        ((k.withCall table call).blockedOn r c n ep (.recvAndYield table epCap)) rest ex

/-! ## How the bridge ends -/

section Bridge

variable {msg : Message} {transfer : Option CapHandle} {call : Suspended}

omit [Build] in
theorem onSched_ok {α : Type} {m : SchedM α} {a : α} {s' : Scheduler}
    (hm : m.run k.sched = .ok a s') : (onSched m).run k = .ok a { k with sched := s' } :=
  Prog.zoom_ok hm

omit [Build] in
theorem endCall_queues (s : IpcSystem TablePtr) (table : TablePtr) (queues : IpcQueues) :
    s.endCall table { s.call table with queues } = { s with queues } := by
  simp [endCall, setTable, IpcSystem.call]

omit [Build] in
@[simp] theorem withCall_call (k : Kernel) (table : TablePtr) (call : IpcCall) :
    (k.withCall table call).ipc.call table = call := by
  simp [withCall, endCall, setTable, IpcSystem.call]

omit [Build] in
theorem withCall_self (k : Kernel) (table : TablePtr) :
    k.withCall table (k.ipc.call table) = k := by
  unfold withCall
  rw [endCall_call]

omit [Build] in
theorem onIpc_ok {α : Type} {m : IpcM α} {a : α} {call : IpcCall}
    (hm : m.run (k.ipc.call table) = .ok a call) :
    (onIpc table m).run k = .ok a (k.withCall table call) := Prog.zoom_ok hm

omit [Build] in
theorem onIpc_err {α : Type} {m : IpcM α} {err : IpcError} {queues : IpcQueues}
    (hm : m.run (k.ipc.call table) = .err err { k.ipc.call table with queues }) :
    (onIpc table m).run k = .err (.ipc err) (k.withQueues queues) := by
  have hzoom : (onIpc table m).run k = .err (.ipc err)
      { k with ipc := k.ipc.endCall table { k.ipc.call table with queues } } := Prog.zoom_err hm
  rw [hzoom, endCall_queues]
  rfl

omit [Build] in
/-- Resolving a handle finds the endpoint it names, or fails and changes nothing. -/
theorem resolveEpCap_run (k : Kernel) (table : TablePtr) (epCap : CapHandle) :
    (∃ cap ep, (CapabilityTable.lookup epCap).run (k.ipc.tables table) =
        .ok cap (k.ipc.tables table) ∧ cap.object = .endpoint ep ∧
      (resolveEpCap table epCap).run k = .ok ep k) ∨
    ∃ err, (resolveEpCap table epCap).run k = .err err k := by
  have hsame := withCall_self k table
  unfold resolveEpCap
  rcases onTable_lookup (k.ipc.tables table) .staleHandle epCap with ⟨cap, hlookup, hrun⟩ |
    ⟨-, hrun⟩
  · have hok := onIpc_ok (hrun (k.ipc.call table) rfl)
    rw [hsame] at hok
    rw [Prog.bind_ok hok]
    cases hobj : cap.object with
    | endpoint ep => exact Or.inl ⟨cap, ep, hlookup, hobj, rfl⟩
    | task => exact Or.inr ⟨_, rfl⟩
    | notification => exact Or.inr ⟨_, rfl⟩
    | addressSpace => exact Or.inr ⟨_, rfl⟩
    | debugConsole => exact Or.inr ⟨_, rfl⟩
  · have herr : (onIpc table (IpcCall.onTable .staleHandle (CapabilityTable.lookup epCap))).run k =
        .err (.ipc .staleHandle) (k.withCall table (k.ipc.call table)) :=
      Prog.zoom_err (hrun (k.ipc.call table) rfl)
    rw [hsame] at herr
    exact Or.inr ⟨_, Prog.bind_err herr⟩

theorem switchTo_run {switch : Switch} (hi : switch.currentIdx.toNat < taskArenaCapacity)
    (hj : switch.nextIdx.toNat < taskArenaCapacity)
    (hne : switch.currentIdx ≠ switch.nextIdx) (call : Suspended) :
    (switchTo switch call).run k = .ok () (k.switched switch call) := by
  have hread : (readCell taskArenaCapacity Scheduler.contexts switch.nextIdx : SchedM _).run
      k.sched = .ok (k.sched.contexts switch.nextIdx) k.sched := if_pos hj
  unfold switchTo
  rw [debugAssert_pos hne, Prog.pure_bind_run]
  dsimp only [activate]
  rw [Prog.modify_bind_run]
  refine Eq.trans (Prog.bind_ok (onSched_ok hread)) ?_
  exact Prog.bind_ok (onSched_ok (setContext_run hi _))

variable (hp : k.sched.Partitioned q ex)
include hp

/-- The switch between two registered tasks. -/
theorem switchTo_between {k' : Kernel} (hc : k.sched.Registered c) (hn : k.sched.Registered n)
    (hne : n ≠ c) (call : Suspended) :
    (switchTo (between k.sched c n) call).run k' =
      .ok () (k'.switched (between k.sched c n) call) :=
  switchTo_run (hp.bound hc) (hp.bound hn) (fun heq => hne (hn.unique hc heq.symm)) call

/-- A yield returns to its caller, or switches to the head of the queue. -/
theorem yieldNow_run (hc : k.sched.current = some c) (call : Suspended) :
    ∃ e k' q', Yields k q c call e k' q' ∧ (yieldNow call).run k = .ok e k' := by
  obtain ⟨hcrun, hcq, -⟩ := hp.current c hc
  unfold yieldNow
  rcases yieldPrelude_run hp hc with ⟨hq, r, hr, hrun⟩ | ⟨n, rest, r, hsplit, hn, hr, hrun⟩
  · refine ⟨_, _, _, .stays hq hr, ?_⟩
    rw [Prog.bind_ok (onSched_ok hrun)]
    rfl
  · refine ⟨_, _, _, .switches hsplit hn hr, ?_⟩
    have hne : n ≠ c := by
      rintro rfl
      exact hcq hn
    rw [Prog.bind_ok (onSched_ok hrun)]
    exact Prog.bind_ok (switchTo_between hp hcrun.1 (hp.queued n hn).1.1 hne call)

omit hp [Build] in
theorem Unblocks.partitioned {s s' : Scheduler} (hunblocks : Unblocks s q ep s' q')
    (hp : s.Partitioned q ex) : s'.Partitioned q' ex := by
  cases hunblocks with
  | nobody => exact hp
  | woken hblocked hh hr => exact hp.unblocks hblocked hh hr

omit hp [Build] in
/-- Waking a receiver dispatches nothing. -/
theorem Unblocks.current_eq {s s' : Scheduler} (hunblocks : Unblocks s q ep s' q') :
    s'.current = s.current ∧ s'.idle = s.idle := by
  cases hunblocks <;> exact ⟨rfl, rfl⟩

theorem unblock_run (ep : EndpointHandle) : ∃ s' q', Unblocks k.sched q ep s' q' ∧
    (unblockReceiverOn ep).run k.sched = .ok () s' := by
  rcases unblockReceiverOn_run hp ep with ⟨hnone, hrun⟩ | ⟨i, h, r, hblocked, hh, hr, hrun⟩
  · exact ⟨_, _, .nobody hnone, hrun⟩
  · exact ⟨_, _, .woken hblocked hh hr, hrun⟩

omit hp in
/-- What a delivered send has left to do. -/
def wakeAndYield (ep : EndpointHandle) (outcome : SendOutcome) : KernelM (Exit SendOutcome) := do
  onSched (Scheduler.unblockReceiverOn ep)
  return (← yieldNow (.sendAndYield outcome)).map fun _ => outcome

omit hp in
/-- A send is refused, enqueued, or delivered to the receiver that waits on `ep`. -/
theorem ipcSendAndYield_cases (hsound : k.ipc.Sound) (table : TablePtr) (epCap : CapHandle)
    (msg : Message) (transfer : Option CapHandle) :
    (∃ err queues, Refused k.ipc.epArena k.ipc.queues queues ∧
      (ipcSendAndYield table epCap msg transfer).run k = .err err (k.withQueues queues)) ∨
    (∃ call, SendEnd (k.ipc.call table) epCap msg transfer (.ok .enqueued call) ∧
      (ipcSendAndYield table epCap msg transfer).run k =
        .ok (.returned .enqueued) (k.withCall table call)) ∨
    ∃ ep call, Targets (k.ipc.tables table) epCap .send ep ∧
      SendEnd (k.ipc.call table) epCap msg transfer (.ok .delivered call) ∧
      (ipcSendAndYield table epCap msg transfer).run k =
        (wakeAndYield ep .delivered).run (k.withCall table call) := by
  rcases resolveEpCap_run k table epCap with ⟨cap, ep, hlookup, hobj, hresolve⟩ | ⟨err, hresolve⟩
  swap
  · exact Or.inl ⟨err, k.ipc.queues, .early, Prog.bind_err hresolve⟩
  have hend := ipcSend_end (s := k.ipc.call table) (hsound.tables table) epCap msg transfer
  cases hr : (ipcSend epCap msg transfer).run (k.ipc.call table) with
  | panic p =>
    rw [hr] at hend
    cases hend with
    | undrained hlive hun => exact absurd hun (hsound.owned.not_undrained hlive)
  | err err call =>
    rw [hr] at hend
    cases hend with
    | @refused _ queues hq =>
      refine Or.inl ⟨.ipc err, queues, hq, Eq.trans (Prog.bind_ok hresolve) ?_⟩
      exact Prog.bind_err (onIpc_err hr)
  | ok outcome call =>
    rw [hr] at hend
    cases outcome with
    | enqueued =>
      refine Or.inr (Or.inl ⟨call, hend, Eq.trans (Prog.bind_ok hresolve) ?_⟩)
      exact Prog.bind_ok (onIpc_ok hr)
    | delivered =>
      have htarget : Targets (k.ipc.tables table) epCap .send ep := by
        cases hend with
        | delivered htarget _ _ _ _ =>
          have hep := htarget.object_eq hlookup
          rw [hobj] at hep
          cases hep
          exact htarget
      refine Or.inr (Or.inr ⟨ep, call, htarget, hend, Eq.trans (Prog.bind_ok hresolve) ?_⟩)
      exact Prog.bind_ok (onIpc_ok hr)

end Bridge

/-! ## Every operation has an effect -/

/-- The operation returns or switches, with one of the effects. -/
def Ends (k : Kernel) (q ex : List TaskHandle) (op : KernelOp) : Prop :=
  ∃ reply k' q' ex', (exec op).run k = .returned reply k' ∧ Effect k q ex op reply k' q' ex'

section Ends

variable {msg : Message} {transfer : Option CapHandle} {addressSpaceHandle : AddressSpaceHandle}
  {entry stackTop userEntry userSp kernelStackTop : ℕ} {capTable : TablePtr}

/-- A call that fails leaves at most a settled endpoint behind. -/
theorem Ends.refused {α : Type} {m : KernelM α} {f : α → KernelM KernelReply}
    (err : SchedError) {queues : IpcQueues} (hexec : exec op = m >>= f)
    (hm : m.run k = .err err (k.withQueues queues))
    (hop : op.callerTable.isSome) (hq : Refused k.ipc.epArena k.ipc.queues queues) :
    Ends k q ex op := by
  refine ⟨.error err, _, _, _, ?_, .refused hop hq⟩
  rw [hexec]
  exact Prog.bind_err hm

/-- A call that returns. -/
theorem Ends.returned {α : Type} {m : KernelM α} {a : α} (mk : α → KernelReply)
    (hexec : exec op = m >>= fun a => pure (mk a)) (hm : m.run k = .ok a k')
    (heffect : Effect k q ex op (.ok (mk a)) k' q' ex') : Ends k q ex op := by
  refine ⟨.ok (mk a), _, _, _, ?_, heffect⟩
  rw [hexec]
  exact Prog.bind_ok hm

variable (hinv : k.Inv q ex)
include hinv

/-- While a task runs, it is current. -/
theorem Inv.current_of_task (hrunning : k.core.running = .task) : k.sched.current ≠ none := by
  intro hnone
  rw [hinv.current_none.mpr hnone] at hrunning
  cases hrunning

/-- A vacant slot leaves room in the queue. -/
theorem Inv.room (hvacant : k.Vacant h) : q.length < taskArenaCapacity := by
  apply hinv.part.room_of_slot hvacant.1
  intro c hc hindex
  have hreg := (hinv.part.queued c hc).1.1
  unfold Registered at hreg
  rw [hindex, hvacant.2] at hreg
  cases hreg

theorem addTask_ends (hvacant : k.Vacant h) :
    Ends k q ex (.addTask h addressSpaceHandle entry stackTop) := by
  obtain ⟨r, s', hr, hrun, hreg⟩ :=
    addTask_run (s := k.sched) hinv.part.ready (hinv.room hvacant) hvacant.1
  exact .returned (fun _ => .registered) rfl (onSched_ok hrun) (.joined rfl hvacant hreg rfl hr)

theorem addUserTask_ends (hvacant : k.Vacant h)
    (hstack : kernelStackTop ≠ 0 ∧ kernelStackTop % 16 = 0) (hsp : userSp % 16 = 0)
    (htable : capTable ≠ 0) :
    Ends k q ex (.addUserTask h addressSpaceHandle userEntry userSp kernelStackTop capTable) := by
  obtain ⟨r, s', hr, hrun, hreg⟩ := addUserTask_run (s := k.sched) hinv.part.ready
    (hinv.room hvacant) hvacant.1 hstack hsp htable
  exact .returned (fun _ => .registered) rfl (onSched_ok hrun) (.joined rfl hvacant hreg rfl hr)

omit hinv in
theorem registerIdle_ends (hvacant : k.Vacant h) (hnone : k.sched.idle = none) :
    Ends k q ex (.registerIdle h addressSpaceHandle entry stackTop) := by
  obtain ⟨s', hrun, hreg⟩ := registerIdle_run (s := k.sched) hnone hvacant.1
  exact .returned (fun _ => .registered) rfl (onSched_ok hrun) (.idled rfl hvacant hnone hreg rfl)

/-- The common part of `start` and `taskExitCurrent`. -/
theorem dispatch_run (hcan : k.CanDispatch) :
    ∃ n rest r, Picks k.sched.idle q n rest ∧ r.Represents rest ∧
      start.run k = .ok () (dispatched { k with sched := { k.sched with
        ready := r, current := some n } } n.slot.index) := by
  have hsome : q ≠ [] ∨ k.sched.idle ≠ none := by
    rcases hcan with hready | hidle
    · left
      rintro rfl
      rw [hinv.part.ready.isEmpty_iff.mpr rfl] at hready
      cases hready
    · exact Or.inr hidle
  obtain ⟨n, rest, r, hpick, hr, hrun⟩ := startPrelude_run hinv.part hsome
  have hbound := hinv.part.bound (hinv.part.picked hpick).1.1
  refine ⟨n, rest, r, hpick, hr, ?_⟩
  have has : (readCell taskArenaCapacity taskAddressSpaceHandles n.slot.index : SchedM _).run
      { k.sched with ready := r, current := some n } =
        .ok (k.sched.taskAddressSpaceHandles n.slot.index) _ := if_pos hbound
  have hcontext : (readCell taskArenaCapacity Scheduler.contexts n.slot.index : SchedM _).run
      { k.sched with ready := r, current := some n } =
        .ok (k.sched.contexts n.slot.index) _ := if_pos hbound
  unfold start runDispatched
  rw [Prog.bind_ok (onSched_ok hrun)]
  refine Eq.trans (Prog.bind_ok (onSched_ok has)) ?_
  dsimp only [activate]
  rw [Prog.modify_bind_run]
  exact Prog.bind_ok (onSched_ok hcontext)

theorem start_ends (hrunning : k.core.running = .boot) (hcan : k.CanDispatch) :
    Ends k q ex .start := by
  obtain ⟨n, rest, r, hpick, hr, hrun⟩ := dispatch_run hinv hcan
  have hcurrent := hinv.current_none.mp hrunning
  exact .returned (fun _ => .switched) rfl hrun (.started hcurrent hpick hr)

theorem taskExit_ends (hc : k.sched.current = some c) (hidle : k.sched.idle ≠ some c)
    (hcan : k.CanDispatch) : Ends k q ex .taskExit := by
  obtain ⟨n, rest, r, hpick, hr, hrun⟩ := dispatch_run hinv hcan
  exact .returned (fun _ => .switched) rfl hrun (.exited hc hidle hpick hr)

/-- An exit panics when nothing is left to run, and dispatches otherwise. -/
theorem taskExit_cases (hc : k.sched.current = some c) (hidle : k.sched.idle ≠ some c) :
    (∃ p, taskExitCurrent.run k = .panic p) ∨
      ∃ k' q' ex', taskExitCurrent.run k = .ok () k' ∧
        Effect k q ex .taskExit (.ok .switched) k' q' ex' := by
  by_cases hcan : k.CanDispatch
  · obtain ⟨n, rest, r, hpick, hr, hrun⟩ := dispatch_run hinv hcan
    exact Or.inr ⟨_, _, _, hrun, .exited hc hidle hpick hr⟩
  · unfold CanDispatch at hcan
    rw [not_or, ne_eq, not_not] at hcan
    obtain ⟨hempty, hnone⟩ := hcan
    have hq : q = [] := hinv.part.ready.isEmpty_iff.mp (by simpa using hempty)
    obtain ⟨p, hpanic⟩ := startPrelude_panic hinv.part hq hnone
    exact Or.inl ⟨p, Prog.bind_panic (Prog.zoom_panic hpanic)⟩

theorem yieldNow_ends (hc : k.sched.current = some c) : Ends k q ex .yieldNow := by
  obtain ⟨e, k', q', hyields, hrun⟩ := yieldNow_run hinv.part hc .yieldNow
  exact .returned (fun e => e.reply fun _ => .yielded) rfl hrun (.yielded hc hyields)

omit hinv in
/-- A send that is delivered wakes the receiver and yields. -/
theorem wakeAndYield_run (outcome : SendOutcome) {k₁ : Kernel} (hp : k₁.sched.Partitioned q ex)
    (hc : k₁.sched.current = some c) (ep : EndpointHandle) :
    ∃ s' q₁ e k' q', Unblocks k₁.sched q ep s' q₁ ∧
      Yields { k₁ with sched := s' } q₁ c (.sendAndYield outcome) e k' q' ∧
      (wakeAndYield ep outcome).run k₁ = .ok (e.map fun _ => outcome) k' := by
  obtain ⟨s', q₁, hunblocks, hwake⟩ := unblock_run hp ep
  have hc' : s'.current = some c := hunblocks.current_eq.1.trans hc
  obtain ⟨e, k', q', hyields, hyield⟩ :=
    yieldNow_run (k := { k₁ with sched := s' }) (hunblocks.partitioned hp) hc'
      (.sendAndYield outcome)
  refine ⟨s', q₁, e, k', q', hunblocks, hyields, ?_⟩
  unfold wakeAndYield
  rw [Prog.bind_ok (onSched_ok hwake), Prog.bind_ok hyield]
  rfl

theorem sendAndYield_ends (hc : k.sched.current = some c) :
    Ends k q ex (.sendAndYield table epCap msg transfer) := by
  rcases ipcSendAndYield_cases hinv.sound table epCap msg transfer with
    ⟨err, queues, hq, hrun⟩ | ⟨call, hend, hrun⟩ | ⟨ep, call, htarget, hend, hrun⟩
  · exact .refused err rfl hrun rfl hq
  · exact .returned (Exit.reply .sent) rfl hrun (.enqueued hend)
  · have hp : (k.withCall table call).sched.Partitioned q ex := hinv.part
    obtain ⟨s', q₁, e, k', q', hunblocks, hyields, hwake⟩ := wakeAndYield_run .delivered hp hc ep
    have heffect : Effect k q ex (.sendAndYield table epCap msg transfer)
        (.ok ((e.map fun _ => .delivered).reply .sent)) k' q' ex := by
      rw [Exit.reply_map]
      exact .delivered hc htarget hend hunblocks hyields
    exact .returned (Exit.reply .sent) rfl (hrun.trans hwake) heffect

omit hinv in
/-- The rollback of a registration that was just made. -/
theorem cancel_run (hsound : k.ipc.Sound) (htarget : Targets (k.ipc.tables table) epCap .recv ep)
    (hlive : Live k.ipc.epArena ep) :
    (onIpc table (ipcCancelRecv epCap)).run
        (k.withCall table { k.ipc.call table with
          queues := k.ipc.queues.put ep .recvWaiting }) =
      .ok () (k.withQueues (k.ipc.queues.put ep .idle)) := by
  have howned : Owned k.ipc.epArena (k.ipc.queues.put ep .recvWaiting) :=
    hsound.owned.put hlive
  have hend := ipcCancelRecv_end
    { k.ipc.call table with queues := k.ipc.queues.put ep .recvWaiting } epCap
  cases hr : (ipcCancelRecv epCap).run
      { k.ipc.call table with queues := k.ipc.queues.put ep .recvWaiting } with
  | ok _ call =>
    rw [hr] at hend
    have hok : (onIpc table (ipcCancelRecv epCap)).run (k.withCall table
        { k.ipc.call table with queues := k.ipc.queues.put ep .recvWaiting }) =
        .ok () ((k.withCall table _).withCall table call) :=
      onIpc_ok (by rw [withCall_call]; exact hr)
    rw [hok]
    cases hend with
    | cancelled htarget' _ _ =>
      cases htarget.unique htarget'
      simp [withCall, withQueues, endCall, setTable, IpcSystem.call]
    | nothing htarget' hne _ =>
      cases htarget.unique htarget'
      exact absurd effective_put hne
  | err err call =>
    rw [hr] at hend
    cases hend with
    | refused hdead => exact absurd hlive (hdead ep htarget)
  | panic p =>
    rw [hr] at hend
    cases hend with
    | undrained hlive' hun => exact absurd hun (howned.not_undrained hlive')

omit hinv in
/-- Phase 2 blocks the caller and dispatches the next task, or reports the deadlock. -/
theorem blockAndYield_run (k₁ : Kernel) (hp : k₁.sched.Partitioned q ex)
    (hc : k₁.sched.current = some c) (hidle : k₁.sched.idle ≠ some c)
    (hcancel : (onIpc table (ipcCancelRecv epCap)).run k₁ = .ok () k') :
    (∃ n rest r, Picks k₁.sched.idle q n rest ∧ n ≠ c ∧ r.Represents rest ∧
      (blockAndYield table epCap ep).run k₁ =
        .ok .switched (k₁.blockedOn r c n ep (.recvAndYield table epCap))) ∨
    (blockAndYield table epCap ep).run k₁ = .err .deadlock k' := by
  unfold blockAndYield
  rcases blockCurrent_run hp hc hidle ep with ⟨n, rest, r, hpick, hne, hr, hrun⟩ |
    ⟨-, -, hrun⟩
  · left
    refine ⟨n, rest, r, hpick, hne, hr, ?_⟩
    have hcreg := (hp.current c hc).1.1
    have hnreg := (hp.picked hpick).1.1
    rw [Prog.bind_ok (onSched_ok hrun)]
    exact Prog.bind_ok (switchTo_between hp hcreg hnreg hne _)
  · right
    rw [Prog.bind_ok (onSched_ok hrun)]
    refine Eq.trans (Prog.bind_ok (Prog.attempt_ok hcancel)) ?_
    rw [debugAssert_pos rfl, Prog.pure_bind_run]
    rfl

theorem recvAndYield_ends (hc : k.sched.current = some c) (hidle : k.sched.idle ≠ some c) :
    Ends k q ex (.recvAndYield table epCap) := by
  have hcur : (Prog.require (k.sched.current ≠ none) .noCurrentTask : KernelM PUnit) =
      pure ⟨⟩ := Prog.require_pos (by simp [hc]) _
  have hsteps : ∀ {m : KernelM (Exit RecvOutcome)},
      (Prog.require (k.sched.current ≠ none) .noCurrentTask >>= fun _ => m : KernelM _).run k =
        m.run k := by
    intro m
    rw [hcur, Prog.pure_bind_run]
  rcases resolveEpCap_run k table epCap with ⟨cap, ep, hlookup, hobj, hresolve⟩ | ⟨err, hresolve⟩
  swap
  · exact .refused err rfl (Eq.trans hsteps (Prog.bind_err hresolve)) rfl .early
  have hend := ipcRecv_end (s := k.ipc.call table) (hinv.sound.tables table) epCap
  cases hr : (ipcRecv epCap).run (k.ipc.call table) with
  | panic p =>
    rw [hr] at hend
    cases hend with
    | undrained hlive hun => exact absurd hun (hinv.sound.owned.not_undrained hlive)
  | err err call =>
    rw [hr] at hend
    cases hend with
    | refused hq _ =>
      refine .refused (.ipc err) rfl (Eq.trans hsteps (Eq.trans (Prog.bind_ok hresolve) ?_))
        rfl hq
      exact Prog.bind_err (onIpc_err hr)
  | ok outcome call =>
    rw [hr] at hend
    cases outcome with
    | received msg cap' =>
      have hrecv : (ipcRecvAndYield table epCap).run k =
          .ok (.returned (.received msg cap')) (k.withCall table call) := by
        refine Eq.trans hsteps (Eq.trans (Prog.bind_ok hresolve) ?_)
        exact Prog.bind_ok (onIpc_ok hr)
      exact .returned (Exit.reply .received) rfl hrecv (.received hend)
    | pending =>
      cases hend with
      | @registered ep' htarget hlive hstate =>
        have hep := htarget.object_eq hlookup
        rw [hobj] at hep
        cases hep
        have hrecv : ∀ {r}, (blockAndYield table epCap ep).run
            (k.withCall table { k.ipc.call table with
              queues := k.ipc.queues.put ep .recvWaiting }) = r →
            (ipcRecvAndYield table epCap).run k = r := by
          intro r hrest
          refine Eq.trans hsteps (Eq.trans (Prog.bind_ok hresolve) ?_)
          exact Eq.trans (Prog.bind_ok (onIpc_ok hr)) hrest
        have hcancel := cancel_run (k := k) hinv.sound htarget hlive
        rcases blockAndYield_run (k.withCall table { k.ipc.call table with
            queues := k.ipc.queues.put ep .recvWaiting }) hinv.part hc hidle hcancel with
          ⟨n, rest, r, hpick, hne, hrep, hrun⟩ | hrun
        · exact .returned (Exit.reply .received) rfl (hrecv hrun)
            (.blocked hc hidle htarget (.registered htarget hlive hstate) hpick hne hrep)
        · refine .refused .deadlock rfl (hrecv (r := .err .deadlock (k.withQueues _)) hrun)
            rfl ?_
          rw [← hstate]
          exact .settled hlive

omit hinv in
theorem resume_run {context : TaskContext} (hrunning : k.core.running = .resuming context) :
    (exec .resume).run k = (continueWith context).run k.resumed := by
  unfold exec
  rw [Prog.get_bind_run, hrunning]
  dsimp only [setRunning]
  rw [Prog.modify_bind_run]
  rfl

/-- What was left to do in the restored context is done, or collects the message. -/
theorem resume_ends {context : TaskContext} (hrunning : k.core.running = .resuming context) :
    Ends k q ex .resume := by
  have hentry : ∀ reply, entryReply context = some reply →
      (continueWith context).run k.resumed = .ok reply k.resumed →
      Ends k q ex .resume := by
    intro reply hentry hrun
    exact ⟨.ok reply, _, _, _, (resume_run hrunning).trans hrun, .continued hrunning hentry⟩
  cases context with
  | kernelEntry => exact hentry _ rfl rfl
  | userEntry => exact hentry _ rfl rfl
  | suspended call =>
    cases call with
    | yieldNow => exact hentry _ rfl rfl
    | taskYield => exact hentry _ rfl rfl
    | sendAndYield => exact hentry _ rfl rfl
    | recvAndYield table epCap =>
      have hend := ipcRecv_end (s := k.ipc.call table) (hinv.sound.tables table) epCap
      cases hr : (ipcRecv epCap).run (k.ipc.call table) with
      | panic p =>
        rw [hr] at hend
        cases hend with
        | undrained hlive hun => exact absurd hun (hinv.sound.owned.not_undrained hlive)
      | err err call =>
        rw [hr] at hend
        cases hend with
        | refused hq hwhy =>
          refine ⟨.error (.ipc err), _, _, _, ?_, .collectRefused hrunning (.refused hq hwhy) hq⟩
          rw [resume_run hrunning]
          exact Prog.bind_err (Prog.bind_err (onIpc_err (k := k.resumed) hr))
      | ok outcome call =>
        rw [hr] at hend
        have hrecv := onIpc_ok (k := k.resumed) hr
        cases outcome with
        | pending =>
          refine ⟨.error (.ipc .pendingAfterResume), _, _, _, ?_, .missed hrunning hend⟩
          rw [resume_run hrunning]
          exact Prog.bind_err (Eq.trans (Prog.bind_ok hrecv) rfl)
        | received msg cap =>
          refine ⟨.ok (.received (.received msg cap)), _, _, _, ?_, .collected hrunning hend⟩
          rw [resume_run hrunning]
          exact Prog.bind_ok (Eq.trans (Prog.bind_ok hrecv) rfl)

/-- Every operation that is invoked by its contract ends. -/
theorem ends_of_exec (henabled : op.Enabled k.core.running) (hdisc : op.Disciplined k) :
    Ends k q ex op := by
  have htask : k.core.running = .task → ∃ c, k.sched.current = some c :=
    fun hrunning => Option.ne_none_iff_exists'.mp (hinv.current_of_task hrunning)
  have hidle : ∀ {c}, k.sched.current = some c → k.sched.current ≠ k.sched.idle →
      k.sched.idle ≠ some c := by
    intro c hc hne hidle
    exact hne (hc.trans hidle.symm)
  cases op with
  | addTask => exact addTask_ends hinv hdisc
  | addUserTask =>
    obtain ⟨hvacant, hstack, hsp, htable⟩ := hdisc
    exact addUserTask_ends hinv hvacant hstack hsp htable
  | registerIdle => exact registerIdle_ends hdisc.1 hdisc.2
  | start => exact start_ends hinv henabled hdisc
  | resume =>
    obtain ⟨context, hrunning⟩ := henabled
    exact resume_ends hinv hrunning
  | yieldNow =>
    obtain ⟨c, hc⟩ := htask henabled
    exact yieldNow_ends hinv hc
  | sendAndYield =>
    obtain ⟨c, hc⟩ := htask henabled
    exact sendAndYield_ends hinv hc
  | recvAndYield =>
    obtain ⟨c, hc⟩ := htask henabled
    exact recvAndYield_ends hinv hc (hidle hc hdisc)
  | taskExit =>
    obtain ⟨c, hc⟩ := htask henabled
    exact taskExit_ends hinv hc (hidle hc hdisc.2) hdisc.1

end Ends

/-! ## The invariant is kept -/

section Invariant

variable {msg : Message} {transfer : Option CapHandle} {reply : Except SchedError KernelReply}
  {call : Suspended} {e : Exit Unit}

theorem sound_withQueues (hsound : k.ipc.Sound) {queues : IpcQueues}
    (hq : Refused k.ipc.epArena k.ipc.queues queues) : (k.withQueues queues).ipc.Sound := by
  have hdrained : Drained (⟨k.ipc, .recv 0 ⟨0, 0⟩, .error (.ipc .queueFull),
      (k.withQueues queues).ipc⟩ : IpcSystem.Event TablePtr) := trivial
  exact hsound.effect hdrained (.failed hq)

theorem sound_sent (hsound : k.ipc.Sound) {outcome : SendOutcome} {call : IpcCall}
    (hend : SendEnd (k.ipc.call table) epCap msg transfer (.ok outcome call)) :
    (k.withCall table call).ipc.Sound := by
  have hdrained : Drained (⟨k.ipc, .send table epCap msg transfer, .ok (.sent outcome),
      (k.withCall table call).ipc⟩ : IpcSystem.Event TablePtr) := trivial
  exact hsound.effect hdrained (.send hend)

theorem sound_received (hsound : k.ipc.Sound) {outcome : RecvOutcome} {call : IpcCall}
    (hend : RecvEnd (k.ipc.call table) epCap (.ok outcome call)) :
    (k.withCall table call).ipc.Sound := by
  have hdrained : Drained (⟨k.ipc, .recv table epCap, .ok (.received outcome),
      (k.withCall table call).ipc⟩ : IpcSystem.Event TablePtr) := trivial
  exact hsound.effect hdrained (.recv hend)

omit [Build] in
/-- A yield keeps the partition, the IPC state and that a task is current. -/
theorem Yields.inv (hyields : Yields k q c call e k' q') (hp : k.sched.Partitioned q ex)
    (hc : k.sched.current = some c) (hrunning : k.core.running ≠ .boot) :
    k'.sched.Partitioned q' ex ∧ k'.ipc = k.ipc ∧ k'.core.running ≠ .boot ∧
      k'.sched.current ≠ none := by
  cases hyields with
  | stays hq hr =>
    subst hq
    exact ⟨hp.stays hr, rfl, hrunning, by simp [hc]⟩
  | switches hsplit hn hr =>
    have hp' := (hp.yields hc hsplit hn hr).saves
    exact ⟨hp' _, rfl, by simp [switched], by simp [switched]⟩

omit [Build] in
/-- With a task current and running, the scheduler is past the first dispatch. -/
theorem iff_of_past {running : Running} {current : Option TaskHandle}
    (hrunning : running ≠ .boot) (hcurrent : current ≠ none) :
    running = .boot ↔ current = none :=
  ⟨fun h => absurd h hrunning, fun h => absurd h hcurrent⟩

theorem Effect.inv (hinv : k.Inv q ex) (heffect : Effect k q ex op reply k' q' ex') :
    k'.Inv q' ex' := by
  have hpast : ∀ {c}, k.sched.current = some c → k.core.running ≠ .boot := by
    intro c hc hboot
    rw [hinv.current_none.mp hboot] at hc
    cases hc
  have hresumed : ∀ {context}, k.core.running = .resuming context →
      (k.resumed.core.running = .boot ↔ k.sched.current = none) := by
    intro context hrunning
    have hcurrent : k.sched.current ≠ none := by
      intro hnone
      rw [hinv.current_none.mpr hnone] at hrunning
      cases hrunning
    exact iff_of_past (by simp [resumed]) hcurrent
  cases heffect with
  | joined _ hvacant hreg _ hr =>
    refine ⟨hinv.part.registers hreg hvacant.2 hvacant.1 hr, hinv.sound, ?_⟩
    rw [hreg.current]
    exact hinv.current_none
  | idled _ hvacant hnone hreg _ =>
    refine ⟨hinv.part.registersIdle hreg hvacant.2 hnone hvacant.1, hinv.sound, ?_⟩
    rw [hreg.current]
    exact hinv.current_none
  | started hcurrent hpick hr =>
    refine ⟨hinv.part.starts hcurrent hpick hr, hinv.sound, ?_⟩
    exact iff_of_past (by simp [dispatched]) (by simp [dispatched])
  | exited hc hidle hpick hr =>
    have hleft := hinv.part.leaves hc hidle
    refine ⟨hleft.starts rfl hpick hr, hinv.sound, ?_⟩
    exact iff_of_past (by simp [dispatched]) (by simp [dispatched])
  | continued hrunning _ => exact ⟨hinv.part, hinv.sound, hresumed hrunning⟩
  | collected hrunning hend =>
    exact ⟨hinv.part, sound_received (k := k.resumed) hinv.sound hend, hresumed hrunning⟩
  | missed hrunning hend =>
    exact ⟨hinv.part, sound_received (k := k.resumed) hinv.sound hend, hresumed hrunning⟩
  | collectRefused hrunning _ hq =>
    exact ⟨hinv.part, sound_withQueues (k := k.resumed) hinv.sound hq, hresumed hrunning⟩
  | yielded hc hyields =>
    obtain ⟨hp, hipc, hrunning, hcurrent⟩ := hyields.inv hinv.part hc (hpast hc)
    exact ⟨hp, hipc ▸ hinv.sound, iff_of_past hrunning hcurrent⟩
  | refused _ hq => exact ⟨hinv.part, sound_withQueues hinv.sound hq, hinv.current_none⟩
  | enqueued hend => exact ⟨hinv.part, sound_sent hinv.sound hend, hinv.current_none⟩
  | delivered hc htarget hend hunblocks hyields =>
    have hp := hunblocks.partitioned hinv.part
    obtain ⟨hp', hipc, hrunning, hcurrent⟩ :=
      hyields.inv hp (hunblocks.current_eq.1.trans hc) (hpast hc)
    refine ⟨hp', ?_, iff_of_past hrunning hcurrent⟩
    rw [hipc]
    exact sound_sent hinv.sound hend
  | received hend => exact ⟨hinv.part, sound_received hinv.sound hend, hinv.current_none⟩
  | @blocked _ _ ep _ _ _ _ _ hc hidle htarget hend hpick _ hr =>
    have hblocked := hinv.part.blocks hc hidle ep
    have hp := hblocked.starts rfl hpick hr
    refine ⟨hp.saves _, sound_received hinv.sound hend, ?_⟩
    exact iff_of_past (by simp [blockedOn, switched]) (by simp [blockedOn, switched])

/-- A step has one of the effects. -/
theorem Inv.effect {ev : KernelEvent} (hinv : k.Inv q ex) (hstep : KernelStep k ev k') :
    ∃ q' ex', Effect k q ex ev.op ev.reply k' q' ex' := by
  obtain ⟨reply, k'', q', ex', hexec, heffect⟩ := ends_of_exec hinv hstep.enabled hstep.disciplined
  obtain ⟨rfl, rfl⟩ := Result.returned_inj.mp (hstep.exec.symm.trans hexec)
  exact ⟨q', ex', heffect⟩

end Invariant

/-! ## Runs of given operations -/

section Trace

instance (op : KernelOp) (running : Running) : Decidable (op.Enabled running) :=
  match op, running with
  | .addTask .., _ => inferInstanceAs (Decidable (_ ∨ _))
  | .addUserTask .., _ => inferInstanceAs (Decidable (_ ∨ _))
  | .registerIdle .., _ => inferInstanceAs (Decidable (_ ∨ _))
  | .start, _ => inferInstanceAs (Decidable (_ = _))
  | .resume, .resuming context => .isTrue ⟨context, rfl⟩
  | .resume, .boot => .isFalse fun hcon => nomatch hcon.choose_spec
  | .resume, .task => .isFalse fun hcon => nomatch hcon.choose_spec
  | .yieldNow, _ => inferInstanceAs (Decidable (_ = _))
  | .sendAndYield .., _ => inferInstanceAs (Decidable (_ = _))
  | .recvAndYield .., _ => inferInstanceAs (Decidable (_ = _))
  | .taskExit, _ => inferInstanceAs (Decidable (_ = _))

instance (k : Kernel) (h : TaskHandle) : Decidable (k.Vacant h) :=
  inferInstanceAs (Decidable (_ ∧ _ = none))

instance (k : Kernel) : Decidable k.CanDispatch :=
  inferInstanceAs (Decidable (_ = false ∨ _ ≠ none))

instance (op : KernelOp) (k : Kernel) : Decidable (op.Disciplined k) :=
  match op with
  | .addTask .. => inferInstanceAs (Decidable (k.Vacant _))
  | .addUserTask .. => inferInstanceAs (Decidable (k.Vacant _ ∧ (_ ≠ _ ∧ _ = _) ∧ _ = _ ∧ _ ≠ _))
  | .registerIdle .. => inferInstanceAs (Decidable (k.Vacant _ ∧ _ = none))
  | .start => inferInstanceAs (Decidable k.CanDispatch)
  | .resume => .isTrue trivial
  | .yieldNow => .isTrue trivial
  | .sendAndYield .. => inferInstanceAs (Decidable (_ ≠ _))
  | .recvAndYield .. => inferInstanceAs (Decidable (_ ≠ _))
  | .taskExit => inferInstanceAs (Decidable (k.CanDispatch ∧ _ ≠ _))

/-- The event of an operation, unless it is not allowed or panics. -/
def event (k : Kernel) (op : KernelOp) : Option KernelEvent :=
  if op.Enabled k.core.running ∧ op.Disciplined k then
    match (exec op).run k with
    | .ok reply k' => some ⟨k, op, .ok reply, k'⟩
    | .err err k' => some ⟨k, op, .error err, k'⟩
    | .panic _ => none
  else
    none

/-- The events of the operations, up to the first that has none. -/
def trace (k : Kernel) : List KernelOp → List KernelEvent
  | [] => []
  | op :: ops =>
    match k.event op with
    | some ev => ev :: ev.after.trace ops
    | none => []

def afterTrace (k : Kernel) : List KernelOp → Kernel
  | [] => k
  | op :: ops =>
    match k.event op with
    | some ev => ev.after.afterTrace ops
    | none => k

theorem step_of_event {ev : KernelEvent} (hev : k.event op = some ev) :
    KernelStep k ev ev.after := by
  unfold event at hev
  split at hev
  · next hallowed =>
    cases hr : (exec op).run k with
    | ok reply k' =>
      rw [hr] at hev
      cases hev
      exact ⟨rfl, rfl, hallowed.1, hallowed.2, hr⟩
    | err err k' =>
      rw [hr] at hev
      cases hev
      exact ⟨rfl, rfl, hallowed.1, hallowed.2, hr⟩
    | panic p =>
      rw [hr] at hev
      cases hev
  · cases hev

theorem trace_run (k : Kernel) (ops : List KernelOp) :
    Run KernelStep k (k.trace ops) (k.afterTrace ops) := by
  induction ops generalizing k with
  | nil => exact .nil k
  | cons op ops ih =>
    unfold trace afterTrace
    cases hev : k.event op with
    | none => exact .nil k
    | some ev => exact .cons (step_of_event hev) (ih ev.after)

end Trace

end Kernel

end Tyrne
