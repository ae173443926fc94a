import Tyrne.Cap.Runs
import Tyrne.Ipc.Spec

/-!
# Runs of the IPC subsystem

Any number of capability tables share the endpoint and notification arenas and the IPC
queues. A run starts at boot and mixes table operations, creation and destruction of
endpoints and notifications, and the IPC operations, in any order with any arguments.
-/

namespace Tyrne

open CapabilityTable IpcQueues

/-- The state the IPC operations of all tasks share; `τ` names the tables. -/
structure IpcSystem (τ : Type) where
  tables : τ → CapabilityTable
  epArena : EndpointArena
  notifArena : NotificationArena
  queues : IpcQueues

inductive IpcOp (τ : Type)
  | table (who : τ) (op : TableOp)
  | createEndpoint (endpoint : Endpoint)
  | destroyEndpoint (handle : EndpointHandle)
  | createNotification (notification : Notification)
  | destroyNotification (handle : NotificationHandle)
  | send (who : τ) (epCap : CapHandle) (msg : Message) (transfer : Option CapHandle)
  | recv (who : τ) (epCap : CapHandle)
  | cancelRecv (who : τ) (epCap : CapHandle)
  | notify (who : τ) (notifCap : CapHandle) (bits : BitVec 64)

inductive IpcReply
  | table (reply : TableReply)
  | endpoint (handle : EndpointHandle)
  | notification (handle : NotificationHandle)
  | destroyed
  | sent (outcome : SendOutcome)
  | received (outcome : RecvOutcome)
  | done

inductive SystemError
  | cap (err : CapError)
  | obj (err : ObjError)
  | ipc (err : IpcError)

/-- `ipc_send`, `ipc_recv`, `ipc_cancel_recv` or `ipc_notify`. -/
def IpcOp.IsIpc {τ : Type} : IpcOp τ → Prop
  | .send .. | .recv .. | .cancelRecv .. | .notify .. => True
  | _ => False

namespace IpcSystem

variable {τ : Type} [DecidableEq τ]

omit [DecidableEq τ] in
/-- All tables and arenas are empty and every endpoint slot is idle. -/
def boot : IpcSystem τ where
  tables _ := CapabilityTable.new
  epArena := Arena.new
  notifArena := Arena.new
  queues := IpcQueues.new

def setTable (s : IpcSystem τ) (who : τ) (t : CapabilityTable) : IpcSystem τ :=
  { s with tables := Function.update s.tables who t }

omit [DecidableEq τ] in
/-- What a call of `who` borrows. -/
def call (who : τ) (s : IpcSystem τ) : IpcCall := ⟨s.epArena, s.queues, s.tables who⟩

def endCall (who : τ) (c : IpcCall) (s : IpcSystem τ) : IpcSystem τ :=
  { s.setTable who c.table with epArena := c.epArena, queues := c.queues }

theorem endCall_call (s : IpcSystem τ) (who : τ) : s.endCall who (s.call who) = s := by
  simp [endCall, setTable, call]

abbrev SystemM (τ : Type) := Prog (IpcSystem τ) SystemError

def onCall {α : Type} (who : τ) (m : IpcM α) : SystemM τ α :=
  Prog.zoom (call who) (endCall who) .ipc m

variable [Build]

def exec : IpcOp τ → SystemM τ IpcReply
  | .table who op => do
    return .table (← Prog.zoom (·.tables who) (fun t s => s.setTable who t) .cap op.exec)
  | .createEndpoint endpoint => do
    return .endpoint (← Prog.zoom epArena (fun epArena s => { s with epArena }) .obj
      (Tyrne.createEndpoint endpoint))
  | .destroyEndpoint handle => do
    let _ ← Prog.zoom epArena (fun epArena s => { s with epArena }) .obj
      (Tyrne.destroyEndpoint handle)
    return .destroyed
  | .createNotification notification => do
    return .notification (← Prog.zoom notifArena (fun notifArena s => { s with notifArena }) .obj
      (Tyrne.createNotification notification))
  | .destroyNotification handle => do
    let _ ← Prog.zoom notifArena (fun notifArena s => { s with notifArena }) .obj
      (Tyrne.destroyNotification handle)
    return .destroyed
  | .send who epCap msg transfer => do
    return .sent (← onCall who (ipcSend epCap msg transfer))
  | .recv who epCap => do return .received (← onCall who (ipcRecv epCap))
  | .cancelRecv who epCap => do
    onCall who (ipcCancelRecv epCap)
    return .done
  | .notify who notifCap bits => do
    let s ← Prog.get
    Prog.zoom notifArena (fun notifArena s => { s with notifArena }) .ipc
      (ipcNotify notifCap (s.tables who) bits)
    return .done

/-- One operation of a run, with the states before and after it. -/
structure Event (τ : Type) where
  before : IpcSystem τ
  op : IpcOp τ
  reply : Except SystemError IpcReply
  after : IpcSystem τ

/-- The operation returned. -/
structure Step (s : IpcSystem τ) (ev : Event τ) (s' : IpcSystem τ) : Prop where
  before : ev.before = s
  after : ev.after = s'
  exec : (IpcSystem.exec ev.op).run s = .returned ev.reply s'

/-! ## What a step can do -/

/-- What an operation can do to a system with well-formed tables, and what it returns. -/
inductive Effect (s : IpcSystem τ) :
    IpcOp τ → Except SystemError IpcReply → IpcSystem τ → Prop
  | failed {op : IpcOp τ} {err : SystemError} {q : IpcQueues} :
      Refused s.epArena s.queues q → Effect s op (.error err) { s with queues := q }
  | table {who : τ} {op : TableOp} {r : TableReply} {t' : CapabilityTable} :
      CapabilityTable.Effect (s.tables who) op (.ok r) t' →
      Effect s (.table who op) (.ok (.table r)) (s.setTable who t')
  | createEndpoint {ep : Endpoint} {handle : EndpointHandle} {arena : EndpointArena} :
      (∀ h, Live arena h ↔ Live s.epArena h ∨ h = handle) →
      Effect s (.createEndpoint ep) (.ok (.endpoint handle)) { s with epArena := arena }
  | destroyEndpoint {handle : EndpointHandle} {arena : EndpointArena} :
      Live s.epArena handle → (∀ h, Live arena h ↔ Live s.epArena h ∧ h ≠ handle) →
      Effect s (.destroyEndpoint handle) (.ok .destroyed) { s with epArena := arena }
  | createNotification {n : Notification} {handle : NotificationHandle}
      {arena : NotificationArena} :
      Effect s (.createNotification n) (.ok (.notification handle))
        { s with notifArena := arena }
  | destroyNotification {handle : NotificationHandle} {arena : NotificationArena} :
      Effect s (.destroyNotification handle) (.ok .destroyed) { s with notifArena := arena }
  | send {who : τ} {epCap : CapHandle} {msg : Message} {transfer : Option CapHandle}
      {outcome : SendOutcome} {c : IpcCall} :
      SendEnd (s.call who) epCap msg transfer (.ok outcome c) →
      Effect s (.send who epCap msg transfer) (.ok (.sent outcome)) (s.endCall who c)
  | recv {who : τ} {epCap : CapHandle} {outcome : RecvOutcome} {c : IpcCall} :
      RecvEnd (s.call who) epCap (.ok outcome c) →
      Effect s (.recv who epCap) (.ok (.received outcome)) (s.endCall who c)
  | cancelRecv {who : τ} {epCap : CapHandle} {c : IpcCall} :
      CancelEnd (s.call who) epCap (.ok () c) →
      Effect s (.cancelRecv who epCap) (.ok .done) (s.endCall who c)
  | notify {who : τ} {notifCap : CapHandle} {bits : BitVec 64} {arena : NotificationArena} :
      Effect s (.notify who notifCap bits) (.ok .done) { s with notifArena := arena }

variable {s s' : IpcSystem τ}

theorem createEndpoint_cases (arena : EndpointArena) (ep : Endpoint) :
    (∃ err, (Tyrne.createEndpoint ep).run arena = .err err arena) ∨
    (∃ handle arena', (Tyrne.createEndpoint ep).run arena = .ok handle arena' ∧
      ∀ h, Live arena' h ↔ Live arena h ∨ h = handle) ∨
    ∃ msg, (Tyrne.createEndpoint ep).run arena = .panic (.assertion msg) := by
  refine (Arena.create_cases arena ep EndpointHandle.mk ObjError.arenaFull).imp_right fun hcases =>
    hcases.imp_left fun hcreated => ?_
  obtain ⟨slot, arena', hrun, hlive⟩ := hcreated
  refine ⟨⟨slot⟩, arena', hrun, fun h => ?_⟩
  obtain ⟨id⟩ := h
  simpa [Live] using hlive id

omit [Build] in
theorem destroyEndpoint_cases (arena : EndpointArena) (handle : EndpointHandle) :
    (∃ err, (Tyrne.destroyEndpoint handle).run arena = .err err arena) ∨
    ∃ ep arena', (Tyrne.destroyEndpoint handle).run arena = .ok ep arena' ∧
      Live arena handle ∧ ∀ h, Live arena' h ↔ Live arena h ∧ h ≠ handle := by
  obtain ⟨slot⟩ := handle
  refine (Arena.destroy_cases arena slot ObjError.invalidHandle).imp_right fun hdestroyed => ?_
  obtain ⟨ep, arena', hrun, hlive, hrest⟩ := hdestroyed
  refine ⟨ep, arena', hrun, hlive, fun h => ?_⟩
  obtain ⟨id⟩ := h
  simpa [Live] using hrest id

theorem createNotification_cases (arena : NotificationArena) (n : Notification) :
    (∃ err, (Tyrne.createNotification n).run arena = .err err arena) ∨
    (∃ slot arena', (Tyrne.createNotification n).run arena = .ok ⟨slot⟩ arena' ∧
      ∀ id, (arena'.get id).isSome ↔ (arena.get id).isSome ∨ id = slot) ∨
    ∃ msg, (Tyrne.createNotification n).run arena = .panic (.assertion msg) :=
  Arena.create_cases arena n NotificationHandle.mk ObjError.arenaFull

omit [Build] in
theorem destroyNotification_cases (arena : NotificationArena) (handle : NotificationHandle) :
    (∃ err, (Tyrne.destroyNotification handle).run arena = .err err arena) ∨
    ∃ n arena', (Tyrne.destroyNotification handle).run arena = .ok n arena' ∧
      (arena.get handle.slot).isSome ∧
      ∀ id, (arena'.get id).isSome ↔ (arena.get id).isSome ∧ id ≠ handle.slot :=
  Arena.destroy_cases arena handle.slot ObjError.invalidHandle

omit [Build] in
theorem ipcNotify_cases (arena : NotificationArena) (table : CapabilityTable)
    (notifCap : CapHandle) (bits : BitVec 64) :
    (∃ err, (ipcNotify notifCap table bits).run arena = .err err arena) ∨
    ∃ arena', (ipcNotify notifCap table bits).run arena = .ok () arena' ∧
      ∀ id, (arena'.get id).isSome ↔ (arena.get id).isSome := by
  have hvalidate : (∃ err, (validateNotifCap table notifCap).run arena = .err err arena) ∨
      ∃ handle, (validateNotifCap table notifCap).run arena = .ok handle arena := by
    unfold validateNotifCap
    rcases lookup_cases table notifCap with ⟨e, -, hrun⟩ | ⟨-, hrun⟩
    · rw [Prog.bind_ok (Prog.zoom_ok hrun)]
      cases e.capability.object with
      | notification handle =>
        dsimp only
        by_cases hright : e.capability.rights.contains .notify
        · rw [Prog.require_pos hright]
          exact Or.inr ⟨handle, rfl⟩
        · rw [Prog.require_neg hright]
          exact Or.inl ⟨_, rfl⟩
      | task => exact Or.inl ⟨_, rfl⟩
      | endpoint => exact Or.inl ⟨_, rfl⟩
      | addressSpace => exact Or.inl ⟨_, rfl⟩
      | debugConsole => exact Or.inl ⟨_, rfl⟩
    · exact Or.inl ⟨_, Prog.bind_err (Prog.zoom_err hrun)⟩
  unfold ipcNotify
  rcases hvalidate with ⟨err, hrun⟩ | ⟨handle, hrun⟩
  · exact Or.inl ⟨err, Prog.bind_err hrun⟩
  · rw [Prog.bind_ok hrun, Prog.get_bind_run]
    cases hmut : arena.getMut handle.slot with
    | none => exact Or.inl ⟨_, rfl⟩
    | some notif => exact Or.inr ⟨_, rfl, fun id => Arena.getMut_live _ id hmut⟩

/-- How an operation ends: it returns with one of the effects, or an assertion of a
debug build stops it; an IPC call only when it would drop a capability. -/
def Ends (s : IpcSystem τ) (op : IpcOp τ) (r : Result (IpcSystem τ) SystemError IpcReply) : Prop :=
  (∃ reply s', r = .returned reply s' ∧ Effect s op reply s') ∨
  ∃ msg, r = .panic (.assertion msg) ∧
    (op.IsIpc → ∃ h, Live s.epArena h ∧ s.queues.Undrained h)

/-- A call on behalf of `who` ends as an operation of the system, from how the call
itself ends. -/
theorem ends_of_call {op : IpcOp τ} {α : Type} (who : τ) (m : IpcM α) (mk : α → IpcReply)
    (hexec : exec op = onCall who m >>= fun a => pure (mk a))
    (hend : match m.run (s.call who) with
      | .ok a c => Effect s op (.ok (mk a)) (s.endCall who c)
      | .err _ c => ∃ q, Refused s.epArena s.queues q ∧ c = { s.call who with queues := q }
      | .panic p => ∃ msg h, p = .assertion msg ∧ Live s.epArena h ∧ s.queues.Undrained h) :
    Ends s op ((exec op).run s) := by
  rw [hexec]
  cases hr : m.run (s.call who) with
  | ok a c =>
    rw [hr] at hend
    exact Or.inl ⟨.ok (mk a), _, Prog.bind_ok (Prog.zoom_ok hr), hend⟩
  | err err c =>
    rw [hr] at hend
    obtain ⟨q, hq, rfl⟩ := hend
    refine Or.inl ⟨.error (.ipc err), _, Prog.bind_err (Prog.zoom_err hr), ?_⟩
    have hsame : s.endCall who { s.call who with queues := q } = { s with queues := q } := by
      simp [endCall, setTable, call]
    rw [hsame]
    exact .failed hq
  | panic p =>
    rw [hr] at hend
    obtain ⟨msg, h, rfl, hlive, hun⟩ := hend
    exact Or.inr ⟨msg, Prog.bind_panic (Prog.zoom_panic hr), fun _ => ⟨h, hlive, hun⟩⟩

theorem ends_of_exec (hwf : ∀ who, (s.tables who).WellFormed) (op : IpcOp τ) :
    Ends s op ((exec op).run s) := by
  have hfailed : ∀ {op : IpcOp τ} {α : Type} {m : SystemM τ α} {f : α → SystemM τ IpcReply}
      {err : SystemError}, m.run s = .err err s → exec op = m >>= f →
      Ends s op ((exec op).run s) := by
    intro op α m f err hrun hop
    exact Or.inl ⟨.error err, s, by rw [hop, Prog.bind_err hrun]; rfl, .failed .early⟩
  cases op with
  | table who op =>
    obtain ⟨reply, t', hrun, heffect⟩ := CapabilityTable.Effect.of_exec (hwf who) op
    cases reply with
    | error err =>
      have hrun' : (Prog.zoom (·.tables who) (fun t s => s.setTable who t) SystemError.cap
          op.exec).run s = .err (.cap err) (s.setTable who t') := Prog.zoom_err hrun
      cases heffect
      have hsame : s.setTable who (s.tables who) = s := by simp [setTable]
      rw [hsame] at hrun'
      exact hfailed hrun' rfl
    | ok r => exact Or.inl ⟨.ok (.table r), _, Prog.bind_ok (Prog.zoom_ok hrun), .table heffect⟩
  | createEndpoint ep =>
    rcases createEndpoint_cases s.epArena ep with ⟨err, hrun⟩ | ⟨handle, arena, hrun, hlive⟩ |
      ⟨msg, hrun⟩
    · exact hfailed (Prog.zoom_err hrun) rfl
    · exact Or.inl ⟨_, _, Prog.bind_ok (Prog.zoom_ok hrun), .createEndpoint hlive⟩
    · exact Or.inr ⟨msg, Prog.bind_panic (Prog.zoom_panic hrun), fun hcon => hcon.elim⟩
  | destroyEndpoint handle =>
    rcases destroyEndpoint_cases s.epArena handle with ⟨err, hrun⟩ |
      ⟨ep, arena, hrun, hlive, hlive'⟩
    · exact hfailed (Prog.zoom_err hrun) rfl
    · exact Or.inl ⟨_, _, Prog.bind_ok (Prog.zoom_ok hrun), .destroyEndpoint hlive hlive'⟩
  | createNotification n =>
    rcases createNotification_cases s.notifArena n with ⟨err, hrun⟩ | ⟨slot, arena, hrun, _⟩ |
      ⟨msg, hrun⟩
    · exact hfailed (Prog.zoom_err hrun) rfl
    · exact Or.inl ⟨_, _, Prog.bind_ok (Prog.zoom_ok hrun), .createNotification⟩
    · exact Or.inr ⟨msg, Prog.bind_panic (Prog.zoom_panic hrun), fun hcon => hcon.elim⟩
  | destroyNotification handle =>
    rcases destroyNotification_cases s.notifArena handle with ⟨err, hrun⟩ | ⟨n, arena, hrun, _⟩
    · exact hfailed (Prog.zoom_err hrun) rfl
    · exact Or.inl ⟨_, _, Prog.bind_ok (Prog.zoom_ok hrun), .destroyNotification⟩
  | notify who notifCap bits =>
    rcases ipcNotify_cases s.notifArena (s.tables who) notifCap bits with ⟨err, hrun⟩ |
      ⟨arena, hrun, _⟩
    · refine Or.inl ⟨.error (.ipc err), s, ?_, .failed .early⟩
      unfold exec
      rw [Prog.get_bind_run, Prog.bind_err (Prog.zoom_err hrun)]
      rfl
    · refine Or.inl ⟨.ok .done, { s with notifArena := arena }, ?_, .notify⟩
      unfold exec
      rw [Prog.get_bind_run, Prog.bind_ok (Prog.zoom_ok hrun)]
      rfl
  | send who epCap msg transfer =>
    apply ends_of_call who (ipcSend epCap msg transfer) .sent rfl
    have hend := ipcSend_end (s := s.call who) (hwf who) epCap msg transfer
    cases hr : (ipcSend epCap msg transfer).run (s.call who) with
    | ok outcome c => exact .send (hr ▸ hend)
    | err err c =>
      rw [hr] at hend
      cases hend with
      | refused hq => exact ⟨_, hq, rfl⟩
    | panic p =>
      rw [hr] at hend
      cases hend with
      | undrained hlive hun => exact ⟨_, _, rfl, hlive, hun⟩
  | recv who epCap =>
    apply ends_of_call who (ipcRecv epCap) .received rfl
    have hend := ipcRecv_end (s := s.call who) (hwf who) epCap
    cases hr : (ipcRecv epCap).run (s.call who) with
    | ok outcome c => exact .recv (hr ▸ hend)
    | err err c =>
      rw [hr] at hend
      cases hend with
      | refused hq => exact ⟨_, hq, rfl⟩
    | panic p =>
      rw [hr] at hend
      cases hend with
      | undrained hlive hun => exact ⟨_, _, rfl, hlive, hun⟩
  | cancelRecv who epCap =>
    apply ends_of_call who (ipcCancelRecv epCap) (fun _ => .done) rfl
    have hend := ipcCancelRecv_end (s.call who) epCap
    cases hr : (ipcCancelRecv epCap).run (s.call who) with
    | ok outcome c => exact .cancelRecv (hr ▸ hend)
    | err err c =>
      rw [hr] at hend
      cases hend with
      | refused => exact ⟨_, .early, rfl⟩
    | panic p =>
      rw [hr] at hend
      cases hend with
      | undrained hlive hun => exact ⟨_, _, rfl, hlive, hun⟩

theorem Effect.of_step (hwf : ∀ who, (s.tables who).WellFormed) {ev : Event τ}
    (hstep : Step s ev s') : Effect s ev.op ev.reply s' := by
  rcases ends_of_exec hwf ev.op with ⟨reply, s'', hrun, heffect⟩ | ⟨msg, hrun, -⟩
  · obtain ⟨rfl, rfl⟩ := Result.returned_inj.mp (hstep.exec.symm.trans hrun)
    exact heffect
  · have hreturned := hstep.exec.symm.trans hrun
    cases hreply : ev.reply <;> simp [Result.returned, hreply] at hreturned

/-! ## Tables stay well formed -/

theorem Effect.wellFormed {op : IpcOp τ} {reply : Except SystemError IpcReply}
    (heffect : Effect s op reply s') (hwf : ∀ who, (s.tables who).WellFormed) (w : τ) :
    (s'.tables w).WellFormed := by
  have hset : ∀ {who : τ} {t' : CapabilityTable}, t'.WellFormed →
      ((s.setTable who t').tables w).WellFormed := by
    intro who t' ht'
    by_cases hw : w = who
    · subst hw
      simpa [setTable] using ht'
    · simpa [setTable, hw] using hwf w
  cases heffect with
  | failed => exact hwf w
  | table heffect => exact hset (heffect.wellFormed (hwf _))
  | createEndpoint => exact hwf w
  | destroyEndpoint => exact hwf w
  | createNotification => exact hwf w
  | destroyNotification => exact hwf w
  | notify => exact hwf w
  | send hend =>
    cases hend with
    | delivered _ _ _ _ htaken => exact hset (htaken.wellFormed (hwf _))
    | enqueued _ _ _ _ htaken => exact hset (htaken.wellFormed (hwf _))
  | recv hend =>
    cases hend with
    | received _ _ _ hinst => exact hset (hinst.wellFormed (hwf _))
    | registered => exact hset (hwf _)
  | cancelRecv hend =>
    cases hend with
    | cancelled => exact hset (hwf _)
    | nothing => exact hset (hwf _)

theorem step_wellFormed {ev : Event τ} (hwf : ∀ who, (s.tables who).WellFormed)
    (hstep : Step s ev s') : ∀ who, (s'.tables who).WellFormed :=
  (Effect.of_step hwf hstep).wellFormed hwf

theorem run_wellFormed {evs : List (Event τ)} (hrun : Run Step boot evs s) :
    ∀ who, (s.tables who).WellFormed :=
  hrun.invariant (I := fun s => ∀ who, (s.tables who).WellFormed)
    (fun _ _ _ => step_wellFormed) fun _ => new_wellFormed

/-! ## Errors are atomic -/

/-- Nothing an operation can observe has changed: no table, no notification word, no
endpoint and no effective state of a live endpoint. -/
structure Unchanged (s s' : IpcSystem τ) : Prop where
  tables : s'.tables = s.tables
  notifArena : s'.notifArena = s.notifArena
  epArena : s'.epArena = s.epArena
  effective : ∀ h, Live s.epArena h → s'.queues.effective h = s.queues.effective h

/-- In every reachable state, an IPC operation that returns an error has changed
nothing, and no IPC operation reaches an `unreachable!()`. -/
theorem ipc_error_atomic {evs : List (Event τ)} (hrun : Run Step boot evs s)
    {op : IpcOp τ} (hop : op.IsIpc) :
    (∀ err s', (exec op).run s = .err err s' → Unchanged s s') ∧
    ∀ msg, (exec op).run s ≠ .panic (.unreachable msg) := by
  rcases ends_of_exec (run_wellFormed hrun) op with ⟨reply, s'', hexec, heffect⟩ |
    ⟨msg, hexec, -⟩
  · rw [hexec]
    cases reply with
    | ok reply => exact ⟨(fun _ _ hcon => nomatch hcon), (fun _ hcon => nomatch hcon)⟩
    | error err =>
      refine ⟨?_, (fun _ hcon => nomatch hcon)⟩
      rintro _ _ ⟨⟩
      cases heffect with
      | failed hq => exact ⟨rfl, rfl, rfl, hq.agree⟩
  · rw [hexec]
    exact ⟨(fun _ _ hcon => nomatch hcon), (fun _ hcon => nomatch hcon)⟩

/-- One endpoint has been created. -/
def oneEndpoint : IpcSystem Unit := { boot with epArena := Arena.new.allocated 0 ⟨7⟩ }

/-- The only table holds a capability to receive on it. -/
def oneReceiver : IpcSystem Unit :=
  oneEndpoint.setTable () (CapabilityTable.new.installed 0
    (rootEntry ⟨.recv, .endpoint ⟨⟨0, 0⟩⟩⟩))

omit [DecidableEq τ] [Build] in
/-- A capability with the right to receive does not allow to send. -/
theorem ipc_error_atomic_missingRight : ∃ (s' : IpcSystem Unit) (evs : List (Event Unit)),
    @Run _ _ (@Step Unit _ ⟨true⟩) boot evs oneReceiver ∧ evs.length = 2 ∧
    (@exec Unit _ ⟨true⟩ (.send () ⟨0, 0⟩ ⟨1, 2, 3, 4⟩ none)).run oneReceiver =
      .err (.ipc .missingRight) s' ∧ Unchanged oneReceiver s' := by
  let _ : Build := ⟨true⟩
  have hcreate : Step boot
      ⟨boot, .createEndpoint ⟨7⟩, .ok (.endpoint ⟨⟨0, 0⟩⟩), oneEndpoint⟩ oneEndpoint :=
    ⟨rfl, rfl, by with_unfolding_all rfl⟩
  have hinsert : Step oneEndpoint ⟨oneEndpoint, .table () (.insertRoot ⟨.recv, .endpoint ⟨⟨0, 0⟩⟩⟩),
      .ok (.table (.handle ⟨0, 0⟩)), oneReceiver⟩ oneReceiver :=
    ⟨rfl, rfl, by with_unfolding_all rfl⟩
  have hcall : (ipcSend ⟨0, 0⟩ ⟨1, 2, 3, 4⟩ none).run (oneReceiver.call ()) =
      .err .missingRight (oneReceiver.call ()) := by
    with_unfolding_all rfl
  have hrefused : (exec (.send () ⟨0, 0⟩ ⟨1, 2, 3, 4⟩ none)).run oneReceiver =
      .err (.ipc .missingRight) (oneReceiver.endCall () (oneReceiver.call ())) :=
    Prog.bind_err (Prog.zoom_err hcall)
  have hrun := Run.cons hcreate (.single hinsert)
  have hop : IpcOp.IsIpc (.send () ⟨0, 0⟩ ⟨1, 2, 3, 4⟩ none) := trivial
  exact ⟨_, _, hrun, rfl, hrefused, (ipc_error_atomic hrun hop).1 _ _ hrefused⟩

end IpcSystem

end Tyrne
