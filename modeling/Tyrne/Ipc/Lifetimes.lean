import Tyrne.Ipc.Isolation
import Tyrne.Ipc.Provenance

/-!
# Objects and the capabilities that name them

The destroy functions leave it to their callers to check with `references_object` that no
table names the object. A capability in flight is in no table, so the check does not see
it. In a run in which no capability in flight names an object that is destroyed, every
capability names a live object.
-/

namespace Tyrne

open CapabilityTable IpcQueues

namespace CapabilityTable

/-- The scan of the slots finds every capability that a handle names. -/
theorem not_referenced {t : CapabilityTable} {target : CapObject} {hd : CapHandle}
    {c : Capability} (hscan : t.referencesObject target = false)
    (hlookup : (lookup hd).run t = .ok c t) : c.object ≠ target := by
  obtain ⟨e, he, rfl⟩ := lookup_eq_ok_iff.mp hlookup
  unfold referencesObject at hscan
  rw [List.any_eq_false] at hscan
  have hslot := hscan hd.index.toNat (List.mem_range.mpr he.bounded)
  rw [BitVec.ofNat_toNat, BitVec.setWidth_eq, he.entry] at hslot
  simpa using hslot

end CapabilityTable

/-- The object that an operation is told to name. -/
def TableOp.names : TableOp → Option CapObject
  | .insertRoot cap => some cap.object
  | .capDerive _ _ newObject => some newObject
  | _ => none

/-- The handle that the next creation returns. -/
def nextEndpoint (arena : EndpointArena) : Option EndpointHandle :=
  arena.freeHead.map fun head => ⟨⟨head, (arena.slots head).generation⟩⟩

namespace IpcSystem

variable {τ : Type} {s s' : IpcSystem τ} {ev : Event τ} {c : Capability}

/-! ## Capabilities that can be used -/

/-- The capability is in a table, or a live endpoint carries it. -/
inductive Usable (s : IpcSystem τ) (c : Capability) : Prop
  | table (who : τ) (hd : CapHandle) : (lookup hd).run (s.tables who) = .ok c (s.tables who) →
      Usable s c
  | inFlight (h : EndpointHandle) : Live s.epArena h → (s.queues.effective h).cap = some c →
      Usable s c

/-- The capability names an object that a usable capability named before. -/
def Named (s : IpcSystem τ) (c : Capability) : Prop := ∃ c₀, Usable s c₀ ∧ c₀.object = c.object

theorem Usable.named (husable : Usable s c) : Named s c := ⟨c, husable, rfl⟩

/-- Nothing is lost on a refused call. -/
theorem usable_refused {q : IpcQueues} (hq : Refused s.epArena s.queues q)
    (husable : Usable { s with queues := q } c) : Usable s c := by
  cases husable with
  | table who hd hlookup => exact .table who hd hlookup
  | inFlight h hlive hcap =>
    rw [hq.agree h hlive] at hcap
    exact .inFlight h hlive hcap

variable [DecidableEq τ]

/-- What can be used after a call: a capability of the caller's new table, or what the
endpoint of the call carries now, or something that could be used before. -/
theorem usable_endCall {who : τ} {h : EndpointHandle} {st : EndpointState}
    {t' : CapabilityTable} (hlive : Live s.epArena h)
    (husable : Usable (s.endCall who ⟨s.epArena, s.queues.put h st, t'⟩) c) :
    (∃ hd, (lookup hd).run t' = .ok c t') ∨ st.cap = some c ∨ Usable s c := by
  cases husable with
  | table w hd hlookup =>
    by_cases hw : w = who
    · subst hw
      rw [endCall_tables_self] at hlookup
      exact Or.inl ⟨hd, hlookup⟩
    · rw [endCall_tables_of_ne hw] at hlookup
      exact Or.inr (Or.inr (.table w hd hlookup))
  | inFlight h' hlive' hcap =>
    have heffective : ((s.queues.put h st).effective h').cap = some c := hcap
    rw [effective_put_live hlive hlive'] at heffective
    split at heffective
    · exact Or.inr (Or.inl heffective)
    · exact Or.inr (Or.inr (.inFlight h' hlive' heffective))

/-- A call that leaves the table alone and nothing in flight. -/
theorem usable_of_emptied {who : τ} {h : EndpointHandle} {st : EndpointState}
    (hlive : Live s.epArena h) (hempty : st.cap = none)
    (husable : Usable (s.endCall who ⟨s.epArena, s.queues.put h st, s.tables who⟩) c) :
    Usable s c := by
  rcases usable_endCall hlive husable with ⟨hd, hlookup⟩ | hcap | hold
  · exact .table who hd hlookup
  · rw [hempty] at hcap
    cases hcap
  · exact hold

variable [Build]

/-- A send takes what it puts in flight from the sender's table. -/
theorem usable_of_sent {who : τ} {h : EndpointHandle} {st : EndpointState}
    {t' : CapabilityTable} {transfer : Option CapHandle} {owned : Option Capability}
    (hwf : (s.tables who).WellFormed) (hlive : Live s.epArena h) (hcap : st.cap = owned)
    (hxfer : Transferable (s.tables who) transfer)
    (htaken : Taken (s.tables who) transfer owned t')
    (husable : Usable (s.endCall who ⟨s.epArena, s.queues.put h st, t'⟩) c) : Usable s c := by
  rcases usable_endCall hlive husable with ⟨hd, hlookup⟩ | hflight | hold
  · have hnamed := named_of_taken_table hwf htaken (named_eq_some.mpr hlookup)
    exact .table who hd (named_eq_some.mp hnamed)
  · rw [hcap] at hflight
    subst hflight
    cases htaken with
    | cap hrun =>
      have hnamed := (taken_transferable hwf hrun hxfer).1
      exact .table who _ (named_eq_some.mp hnamed)
  · exact hold

omit [Build] in
/-- A receive installs what its endpoint carried. -/
theorem usable_of_received {who : τ} {h : EndpointHandle} {t' : CapabilityTable}
    {msg : Message} {cap : Option Capability} {xfer : Option CapHandle}
    (hwf : (s.tables who).WellFormed) (hlive : Live s.epArena h)
    (hheld : (s.queues.effective h).held = some (msg, cap))
    (hinst : Installed (s.tables who) cap xfer t')
    (husable : Usable (s.endCall who ⟨s.epArena, s.queues.put h .idle, t'⟩) c) : Usable s c := by
  rcases usable_endCall hlive husable with ⟨hd, hlookup⟩ | hflight | hold
  · rcases named_of_installed_table hwf hinst (named_eq_some.mpr hlookup) with hnamed | ⟨_, hcap⟩
    · exact .table who hd (named_eq_some.mp hnamed)
    · refine .inFlight h hlive ?_
      rw [hcap] at hheld
      simp [EndpointState.cap, hheld]
  · cases hflight
  · exact hold

omit [Build] in
/-- A table operation makes copies of what is in the table, and names what it is told to. -/
theorem named_of_table {who : τ} {op : TableOp} {r : TableReply} {t' : CapabilityTable}
    (hwf : (s.tables who).WellFormed)
    (heffect : CapabilityTable.Effect (s.tables who) op (.ok r) t')
    (husable : Usable (s.setTable who t') c) : Named s c ∨ op.names = some c.object := by
  cases husable with
  | inFlight h hlive hcap =>
    have hbefore : Usable s c := .inFlight h hlive hcap
    exact Or.inl hbefore.named
  | table w hd hlookup =>
    by_cases hw : w = who
    · subst hw
      have htable : (s.setTable w t').tables w = t' := by simp [setTable]
      rw [htable] at hlookup
      rcases heffect.arrival hwf hlookup with hold | ⟨_, hissued⟩
      · have hbefore : Usable s c := .table w hd hold
        exact Or.inl hbefore.named
      · cases op with
        | insertRoot cap =>
          cases hissued
          exact Or.inr rfl
        | capDerive src newRights newObject =>
          cases hissued
          exact Or.inr rfl
        | capCopy src newRights =>
          rcases lookup_cases (s.tables w) src with ⟨e, _, hrun⟩ | ⟨_, hrun⟩
          · simp only [issuedCapability, hrun] at hissued
            cases hissued
            exact Or.inl ⟨e.capability, .table w src hrun, rfl⟩
          · simp only [issuedCapability, hrun] at hissued
            cases hissued
        | capRevoke => cases hissued
        | capDrop => cases hissued
        | capTake => cases hissued
    · have htable : (s.setTable who t').tables w = s.tables w := by simp [setTable, hw]
      rw [htable] at hlookup
      have hbefore : Usable s c := .table w hd hlookup
      exact Or.inl hbefore.named

/-- Where the object of a usable capability comes from: a usable capability named it, a
table operation was told to name it, or a new endpoint has it from its slot's last owner. -/
theorem Step.usable (harena : s.epArena.WellFormed) (hwf : ∀ who, (s.tables who).WellFormed)
    (hstep : Step s ev s') (husable : Usable s' c) : Named s c ∨
      (∃ who op, ev.op = .table who op ∧ op.names = some c.object) ∨
      ∃ ep h, ev.op = .createEndpoint ep ∧ nextEndpoint s.epArena = some h ∧
        (s.queues.effective h).cap = some c := by
  have heffect := Effect.of_step hwf hstep
  generalize hop : ev.op = op at heffect
  generalize hreply : ev.reply = reply at heffect
  have hbefore : Usable s c → Named s c ∨
      (∃ who op', op = .table who op' ∧ op'.names = some c.object) ∨
      ∃ ep h, op = .createEndpoint ep ∧ nextEndpoint s.epArena = some h ∧
        (s.queues.effective h).cap = some c := fun hold => Or.inl hold.named
  cases heffect with
  | failed hq => exact hbefore (usable_refused hq husable)
  | @table who op _ _ heffect =>
    rcases named_of_table (hwf who) heffect husable with hnamed | hnames
    · exact Or.inl hnamed
    · exact Or.inr (Or.inl ⟨who, op, rfl, hnames⟩)
  | @createEndpoint ep =>
    obtain ⟨head, hhead, hvacant, _, hs'⟩ := Step.created harena hop hreply hstep
    rw [hs'] at husable
    cases husable with
    | table who hd hlookup => exact hbefore (.table who hd hlookup)
    | inFlight h hlive hcap =>
      obtain ⟨slot⟩ := h
      rcases (Arena.get_allocated slot hvacant.1).mp hlive with hold | hnew
      · exact hbefore (.inFlight ⟨slot⟩ hold hcap)
      · subst hnew
        exact Or.inr (Or.inr ⟨ep, _, rfl, by rw [nextEndpoint, hhead]; rfl, hcap⟩)
  | destroyEndpoint _ hlive' =>
    cases husable with
    | table who hd hlookup => exact hbefore (.table who hd hlookup)
    | inFlight h hlive hcap => exact hbefore (.inFlight h ((hlive' h).mp hlive).1 hcap)
  | createNotification =>
    cases husable with
    | table who hd hlookup => exact hbefore (.table who hd hlookup)
    | inFlight h hlive hcap => exact hbefore (.inFlight h hlive hcap)
  | destroyNotification =>
    cases husable with
    | table who hd hlookup => exact hbefore (.table who hd hlookup)
    | inFlight h hlive hcap => exact hbefore (.inFlight h hlive hcap)
  | notify =>
    cases husable with
    | table who hd hlookup => exact hbefore (.table who hd hlookup)
    | inFlight h hlive hcap => exact hbefore (.inFlight h hlive hcap)
  | send hend =>
    cases hend with
    | delivered _ hlive _ hxfer htaken =>
      refine hbefore (usable_of_sent (hwf _) hlive ?_ hxfer htaken husable)
      rfl
    | enqueued _ hlive _ hxfer htaken =>
      refine hbefore (usable_of_sent (hwf _) hlive ?_ hxfer htaken husable)
      rfl
  | recv hend =>
    cases hend with
    | received _ hlive hheld hinst =>
      exact hbefore (usable_of_received (hwf _) hlive hheld hinst husable)
    | registered _ hlive => exact hbefore (usable_of_emptied hlive rfl husable)
  | cancelRecv hend =>
    cases hend with
    | cancelled _ hlive => exact hbefore (usable_of_emptied hlive rfl husable)
    | nothing _ _ hq =>
      refine hbefore (usable_refused hq ?_)
      cases husable with
      | table who hd hlookup =>
        rw [endCall_tables_same rfl] at hlookup
        exact .table who hd hlookup
      | inFlight h hlive hcap => exact .inFlight h hlive hcap

/-! ## Objects that stay -/

/-- An endpoint stays until it is destroyed. -/
theorem Step.endpoint_stays {h : EndpointHandle} (harena : s.epArena.WellFormed)
    (hwf : ∀ who, (s.tables who).WellFormed) (hstep : Step s ev s') (hlive : Live s.epArena h) :
    Live s'.epArena h ∨ ev.op = .destroyEndpoint h ∧ ∃ r, ev.reply = .ok r := by
  have hmoved := Moved.of_step harena hwf hstep
  by_cases hop : ev.op = .destroyEndpoint h
  · cases hmoved with
    | created _ _ hcreate => rw [hop] at hcreate; cases hcreate
    | destroyed _ _ hreply => exact Or.inr ⟨hop, _, hreply⟩
    | wrote _ _ _ hsame => exact Or.inl (by rwa [hsame])
    | kept _ _ hsame => exact Or.inl (by rwa [hsame])
  · exact Or.inl (hmoved.live_of_live hlive hop)

/-- A notification stays until it is destroyed. -/
theorem Step.notification_stays {h : NotificationHandle}
    (hwf : ∀ who, (s.tables who).WellFormed) (hstep : Step s ev s')
    (hlive : (getNotification s.notifArena h).isSome) :
    (getNotification s'.notifArena h).isSome ∨
      ev.op = .destroyNotification h ∧ ∃ r, ev.reply = .ok r := by
  have heffect := Effect.of_step hwf hstep
  have hexec := hstep.exec
  generalize hop : ev.op = op at heffect hexec
  generalize hreply : ev.reply = reply at heffect hexec
  cases heffect with
  | createNotification =>
    obtain ⟨handle, s₁, hzoom, hpure⟩ := Prog.bind_eq_ok.mp hexec
    cases hpure
    obtain ⟨arena, hrun, hzoomed⟩ := Prog.zoom_eq_ok.mp hzoom
    have hsame := congrArg notifArena hzoomed
    dsimp only at hsame ⊢
    subst hsame
    rcases createNotification_cases s.notifArena _ with ⟨_, hcase⟩ | ⟨_, _, hcase, hrest⟩ |
      ⟨_, hcase⟩
    · rw [hcase] at hrun
      cases hrun
    · rw [hcase] at hrun
      cases hrun
      exact Or.inl ((hrest h.slot).mpr (Or.inl hlive))
    · rw [hcase] at hrun
      cases hrun
  | @destroyNotification handle =>
    obtain ⟨_, s₁, hzoom, hpure⟩ := Prog.bind_eq_ok.mp hexec
    cases hpure
    obtain ⟨arena, hrun, hzoomed⟩ := Prog.zoom_eq_ok.mp hzoom
    have hsame := congrArg notifArena hzoomed
    dsimp only at hsame ⊢
    subst hsame
    rcases destroyNotification_cases s.notifArena handle with ⟨_, hcase⟩ | ⟨_, _, hcase, _, hrest⟩
    · rw [hcase] at hrun
      cases hrun
    · rw [hcase] at hrun
      cases hrun
      by_cases hslot : h.slot = handle.slot
      · obtain ⟨slot⟩ := h
        obtain ⟨slot'⟩ := handle
        dsimp only at hslot
        subst hslot
        exact Or.inr ⟨rfl, _, rfl⟩
      · exact Or.inl ((hrest h.slot).mpr ⟨hlive, hslot⟩)
  | @notify who notifCap bits =>
    have hzoom : (do
        Prog.zoom notifArena (fun notifArena s => { s with notifArena }) SystemError.ipc
          (ipcNotify notifCap (s.tables who) bits)
        return IpcReply.done : SystemM τ IpcReply).run s = .ok .done _ := hexec
    obtain ⟨_, s₁, hzoom, hpure⟩ := Prog.bind_eq_ok.mp hzoom
    cases hpure
    obtain ⟨arena, hrun, hzoomed⟩ := Prog.zoom_eq_ok.mp hzoom
    have hsame := congrArg notifArena hzoomed
    dsimp only at hsame ⊢
    subst hsame
    rcases ipcNotify_cases s.notifArena (s.tables who) notifCap bits with ⟨_, hcase⟩ |
      ⟨_, hcase, hrest⟩
    · rw [hcase] at hrun
      cases hrun
    · rw [hcase] at hrun
      cases hrun
      exact Or.inl ((hrest h.slot).mpr hlive)
  | _ => exact Or.inl hlive

end IpcSystem

/-! ## Objects and tables together -/

/-- The IPC subsystem and the task arena; `τ` names the tables. -/
structure ObjectSystem (τ : Type) where
  ipc : IpcSystem τ
  taskArena : TaskArena

inductive ObjectOp (τ : Type)
  | ipc (op : IpcOp τ)
  | createTask (task : Task)
  | destroyTask (handle : TaskHandle)

inductive ObjectReply
  | ipc (reply : IpcReply)
  | task (handle : TaskHandle)
  | destroyed

namespace ObjectSystem

variable {τ : Type}

def boot : ObjectSystem τ := ⟨IpcSystem.boot, Arena.new⟩

/-- The object has been created and not destroyed since. -/
def LiveObject (s : ObjectSystem τ) : CapObject → Prop
  | .task handle => (getTask s.taskArena handle).isSome
  | .endpoint handle => (getEndpoint s.ipc.epArena handle).isSome
  | .notification handle => (getNotification s.ipc.notifArena handle).isSome
  | .addressSpace _ => True
  | .debugConsole => True

/-- Every capability in a table names a live object. -/
def NoDangling (s : ObjectSystem τ) : Prop :=
  ∀ who hd c, (lookup hd).run (s.ipc.tables who) = .ok c (s.ipc.tables who) → s.LiveObject c.object

/-- One operation of a run, with the states before and after it. -/
structure Event (τ : Type) where
  before : ObjectSystem τ
  op : ObjectOp τ
  reply : Except SystemError ObjectReply
  after : ObjectSystem τ

/-- The object that the event destroys. -/
def destroyed (ev : Event τ) : Option CapObject :=
  match ev.op, ev.reply with
  | .destroyTask handle, .ok _ => some (.task handle)
  | .ipc (.destroyEndpoint handle), .ok _ => some (.endpoint handle)
  | .ipc (.destroyNotification handle), .ok _ => some (.notification handle)
  | _, _ => none

/-- The event names live objects only, and destroys no object that a table references. -/
structure Disciplined (ev : Event τ) : Prop where
  names : ∀ who op X, ev.op = .ipc (.table who op) → op.names = some X → ev.before.LiveObject X
  unreferenced : ∀ X who, destroyed ev = some X →
    (ev.before.ipc.tables who).referencesObject X = false

/-- No endpoint other than `X` carries a capability that names the object `X` when the
event destroys it, and a new endpoint has no capability from the slot's last owner that
names a destroyed object. -/
structure Clear (ev : Event τ) : Prop where
  inFlight : ∀ X h c, destroyed ev = some X → Live ev.before.ipc.epArena h → .endpoint h ≠ X →
    (ev.before.ipc.queues.effective h).cap = some c → c.object ≠ X
  leftOver : ∀ ep h c, ev.op = .ipc (.createEndpoint ep) →
    nextEndpoint ev.before.ipc.epArena = some h →
    (ev.before.ipc.queues.effective h).cap = some c → ev.before.LiveObject c.object

variable [DecidableEq τ] [Build]

def exec : ObjectOp τ → Prog (ObjectSystem τ) SystemError ObjectReply
  | .ipc op => do
    return .ipc (← Prog.zoom ipc (fun ipc s => { s with ipc }) id (IpcSystem.exec op))
  | .createTask task => do
    return .task (← Prog.zoom taskArena (fun taskArena s => { s with taskArena }) .obj
      (Tyrne.createTask task))
  | .destroyTask handle => do
    let _ ← Prog.zoom taskArena (fun taskArena s => { s with taskArena }) .obj
      (Tyrne.destroyTask handle)
    return .destroyed

/-- The operation returned. -/
structure Step (s : ObjectSystem τ) (ev : Event τ) (s' : ObjectSystem τ) : Prop where
  before : ev.before = s
  after : ev.after = s'
  exec : (ObjectSystem.exec ev.op).run s = .returned ev.reply s'

variable {s s' : ObjectSystem τ} {ev : Event τ} {c : Capability}

/-! ## One step -/

/-- What an operation does to the state: an IPC step, or a change of the task arena that
kills at most the task that it destroys. -/
inductive Effect (s : ObjectSystem τ) : ObjectOp τ → Except SystemError ObjectReply →
    ObjectSystem τ → Prop
  | ipc {op : IpcOp τ} {reply : Except SystemError IpcReply} {ipc' : IpcSystem τ} :
      IpcSystem.Step s.ipc ⟨s.ipc, op, reply, ipc'⟩ ipc' →
      Effect s (.ipc op) (reply.map .ipc) { s with ipc := ipc' }
  | failed {op : ObjectOp τ} {err : SystemError} : Effect s op (.error err) s
  | createTask {task : Task} {handle : TaskHandle} {arena : TaskArena} :
      (∀ id, (s.taskArena.get id).isSome → (arena.get id).isSome) →
      Effect s (.createTask task) (.ok (.task handle)) { s with taskArena := arena }
  | destroyTask {handle : TaskHandle} {arena : TaskArena} :
      (∀ id, (s.taskArena.get id).isSome → id ≠ handle.slot → (arena.get id).isSome) →
      Effect s (.destroyTask handle) (.ok .destroyed) { s with taskArena := arena }

theorem Effect.of_step (hstep : Step s ev s') : Effect s ev.op ev.reply s' := by
  obtain ⟨before, op, reply, after⟩ := ev
  have hexec : (ObjectSystem.exec op).run s = .returned reply s' := hstep.exec
  dsimp only
  cases op with
  | ipc op =>
    cases hrun : (IpcSystem.exec op).run s.ipc with
    | ok r ipc' =>
      have hok : (ObjectSystem.exec (.ipc op)).run s =
          .returned (.ok (.ipc r)) { s with ipc := ipc' } :=
        Prog.bind_ok (Prog.zoom_ok hrun)
      obtain ⟨rfl, rfl⟩ := Result.returned_inj.mp (hexec.symm.trans hok)
      exact .ipc (show IpcSystem.Step s.ipc ⟨s.ipc, op, .ok r, ipc'⟩ ipc' from ⟨rfl, rfl, hrun⟩)
    | err err ipc' =>
      have herr : (ObjectSystem.exec (.ipc op)).run s =
          .returned (.error err) { s with ipc := ipc' } :=
        Prog.bind_err (Prog.zoom_err hrun)
      obtain ⟨rfl, rfl⟩ := Result.returned_inj.mp (hexec.symm.trans herr)
      exact .ipc
        (show IpcSystem.Step s.ipc ⟨s.ipc, op, .error err, ipc'⟩ ipc' from ⟨rfl, rfl, hrun⟩)
    | panic p =>
      have hpanic : (ObjectSystem.exec (.ipc op)).run s = .panic p :=
        Prog.bind_panic (Prog.zoom_panic hrun)
      rw [hpanic] at hexec
      cases reply <;> cases hexec
  | createTask task =>
    rcases Arena.create_cases s.taskArena task TaskHandle.mk ObjError.arenaFull with
      ⟨err, hrun⟩ | ⟨slot, arena, hrun, hrest⟩ | ⟨msg, hrun⟩
    · have herr : (ObjectSystem.exec (.createTask task)).run s = .returned (.error (.obj err)) s :=
        Prog.bind_err (Prog.zoom_err hrun)
      obtain ⟨rfl, rfl⟩ := Result.returned_inj.mp (hexec.symm.trans herr)
      exact .failed
    · have hok : (ObjectSystem.exec (.createTask task)).run s =
          .returned (.ok (.task ⟨slot⟩)) { s with taskArena := arena } :=
        Prog.bind_ok (Prog.zoom_ok hrun)
      obtain ⟨rfl, rfl⟩ := Result.returned_inj.mp (hexec.symm.trans hok)
      exact .createTask fun id hlive => (hrest id).mpr (Or.inl hlive)
    · have hpanic : (ObjectSystem.exec (.createTask task)).run s = .panic (.assertion msg) :=
        Prog.bind_panic (Prog.zoom_panic hrun)
      rw [hpanic] at hexec
      cases reply <;> cases hexec
  | destroyTask handle =>
    rcases Arena.destroy_cases s.taskArena handle.slot ObjError.invalidHandle with
      ⟨err, hrun⟩ | ⟨task, arena, hrun, _, hrest⟩
    · have herr : (ObjectSystem.exec (.destroyTask handle)).run s =
          .returned (.error (.obj err)) s :=
        Prog.bind_err (Prog.zoom_err hrun)
      obtain ⟨rfl, rfl⟩ := Result.returned_inj.mp (hexec.symm.trans herr)
      exact .failed
    · have hok : (ObjectSystem.exec (.destroyTask handle)).run s =
          .returned (.ok .destroyed) { s with taskArena := arena } :=
        Prog.bind_ok (Prog.zoom_ok hrun)
      obtain ⟨rfl, rfl⟩ := Result.returned_inj.mp (hexec.symm.trans hok)
      exact .destroyTask fun id hlive hne => (hrest id).mpr ⟨hlive, hne⟩

/-- An object stays live until it is destroyed. -/
theorem Step.stays {X : CapObject} (harena : s.ipc.epArena.WellFormed)
    (hwf : ∀ who, (s.ipc.tables who).WellFormed) (hstep : Step s ev s') (hlive : s.LiveObject X)
    (hnot : destroyed ev ≠ some X) : s'.LiveObject X := by
  have heffect := Effect.of_step hstep
  unfold destroyed at hnot
  generalize ev.op = op at heffect hnot
  generalize ev.reply = reply at heffect hnot
  cases heffect with
  | failed => exact hlive
  | createTask hgrows =>
    cases X with
    | task handle => exact hgrows handle.slot hlive
    | _ => exact hlive
  | @destroyTask handle' _ hrest =>
    cases X with
    | task handle =>
      refine hrest handle.slot hlive fun hslot => hnot ?_
      obtain ⟨slot⟩ := handle
      obtain ⟨slot'⟩ := handle'
      dsimp only at hslot
      rw [hslot]
    | _ => exact hlive
  | ipc hipc =>
    cases X with
    | task => exact hlive
    | endpoint handle =>
      rcases hipc.endpoint_stays harena hwf hlive with hstays | ⟨hop, r, hreply⟩
      · exact hstays
      · dsimp only at hop hreply
        subst hop hreply
        exact absurd rfl hnot
    | notification handle =>
      rcases hipc.notification_stays hwf hlive with hstays | ⟨hop, r, hreply⟩
      · exact hstays
      · dsimp only at hop hreply
        subst hop hreply
        exact absurd rfl hnot
    | addressSpace => trivial
    | debugConsole => trivial

/-- A destruction leaves the tables and the endpoint states, and the object is not an
endpoint that is live afterwards. -/
theorem Step.destroys {X : CapObject} (hwf : ∀ who, (s.ipc.tables who).WellFormed)
    (hstep : Step s ev s') (hdestroyed : destroyed ev = some X) :
    s'.ipc.tables = s.ipc.tables ∧ s'.ipc.queues = s.ipc.queues ∧
      ∀ h, Live s'.ipc.epArena h → Live s.ipc.epArena h ∧ .endpoint h ≠ X := by
  have heffect := Effect.of_step hstep
  unfold destroyed at hdestroyed
  generalize ev.op = op at heffect hdestroyed
  generalize ev.reply = reply at heffect hdestroyed
  cases heffect with
  | failed => simp at hdestroyed
  | createTask => cases hdestroyed
  | destroyTask =>
    cases hdestroyed
    exact ⟨rfl, rfl, fun h hlive => ⟨hlive, by simp⟩⟩
  | @ipc op reply ipc' hipc =>
    cases reply with
    | error err => simp [Except.map] at hdestroyed
    | ok r =>
      cases op with
      | destroyEndpoint handle =>
        cases hdestroyed
        obtain ⟨hlive, rfl⟩ := IpcSystem.Step.destroyed rfl rfl hipc
        refine ⟨rfl, rfl, fun h hlive' => ?_⟩
        obtain ⟨slot⟩ := h
        obtain ⟨slot'⟩ := handle
        simpa [Live] using (Arena.get_freed slot hlive).mp hlive'
      | destroyNotification handle =>
        cases hdestroyed
        cases IpcSystem.Effect.of_step hwf hipc with
        | destroyNotification => exact ⟨rfl, rfl, fun h hlive => ⟨hlive, by simp⟩⟩
      | _ => cases hdestroyed

/-- Where the object of a usable capability comes from. -/
theorem Step.usable (harena : s.ipc.epArena.WellFormed)
    (hwf : ∀ who, (s.ipc.tables who).WellFormed) (hstep : Step s ev s')
    (husable : s'.ipc.Usable c) : s.ipc.Named c ∨
      (∃ who op, ev.op = .ipc (.table who op) ∧ op.names = some c.object) ∨
      ∃ ep h, ev.op = .ipc (.createEndpoint ep) ∧ nextEndpoint s.ipc.epArena = some h ∧
        (s.ipc.queues.effective h).cap = some c := by
  have heffect := Effect.of_step hstep
  generalize ev.op = op at heffect
  generalize ev.reply = reply at heffect
  cases heffect with
  | failed => exact Or.inl husable.named
  | createTask => exact Or.inl husable.named
  | destroyTask => exact Or.inl husable.named
  | ipc hipc =>
    rcases hipc.usable harena hwf husable with hnamed | ⟨who, op, hop, hnames⟩ |
      ⟨ep, h, hop, hleft⟩
    · exact Or.inl hnamed
    · exact Or.inr (Or.inl ⟨who, op, congrArg _ hop, hnames⟩)
    · exact Or.inr (Or.inr ⟨ep, h, congrArg _ hop, hleft⟩)

/-! ## Whole runs -/

/-- The tables and the endpoint arena are well formed, and every capability that can be
used names a live object. -/
structure Sound (s : ObjectSystem τ) : Prop where
  tables : ∀ who, (s.ipc.tables who).WellFormed
  arena : s.ipc.epArena.WellFormed
  live : ∀ c, s.ipc.Usable c → s.LiveObject c.object

omit [Build] [DecidableEq τ] in
theorem effective_new {h : EndpointHandle} : IpcQueues.new.effective h = .idle := by
  unfold effective
  split <;> rfl

omit [Build] [DecidableEq τ] in
theorem boot_sound : Sound (boot : ObjectSystem τ) where
  tables _ := new_wellFormed
  arena := Arena.new_wellFormed (by decide)
  live c husable := by
    cases husable with
    | table who hd hlookup =>
      obtain ⟨e, he, _⟩ := lookup_eq_ok_iff.mp hlookup
      cases he.entry
    | inFlight h _ hcap =>
      have hnew : (IpcQueues.new.effective h).cap = some c := hcap
      rw [effective_new] at hnew
      cases hnew

/-- The tables and the arena stay well formed under any operation. -/
theorem Sound.wellFormed (hsound : Sound s) (hstep : Step s ev s') :
    (∀ who, (s'.ipc.tables who).WellFormed) ∧ s'.ipc.epArena.WellFormed := by
  have heffect := Effect.of_step hstep
  generalize ev.op = op at heffect
  generalize ev.reply = reply at heffect
  cases heffect with
  | failed => exact ⟨hsound.tables, hsound.arena⟩
  | createTask => exact ⟨hsound.tables, hsound.arena⟩
  | destroyTask => exact ⟨hsound.tables, hsound.arena⟩
  | ipc hipc =>
    have hmoved := IpcSystem.Moved.of_step hsound.arena hsound.tables hipc
    exact ⟨IpcSystem.step_wellFormed hsound.tables hipc, hmoved.wellFormed hsound.arena⟩

/-- What is destroyed is named by no capability that can be used afterwards. -/
theorem Sound.usable_ne {X : CapObject} (hsound : Sound s) (hstep : Step s ev s')
    (hdisciplined : Disciplined ev) (hclear : Clear ev) (hdestroyed : destroyed ev = some X)
    (husable : s'.ipc.Usable c) : s.ipc.Usable c ∧ c.object ≠ X := by
  obtain ⟨htables, hqueues, hlive'⟩ := hstep.destroys hsound.tables hdestroyed
  obtain ⟨rfl, _, _⟩ := hstep
  cases husable with
  | table who hd hlookup =>
    rw [htables] at hlookup
    exact ⟨.table who hd hlookup,
      not_referenced (hdisciplined.unreferenced X who hdestroyed) hlookup⟩
  | inFlight h hlive hcap =>
    rw [hqueues] at hcap
    obtain ⟨hbefore, hne⟩ := hlive' h hlive
    exact ⟨.inFlight h hbefore hcap, hclear.inFlight X h c hdestroyed hbefore hne hcap⟩

theorem Sound.step (hsound : Sound s) (hstep : Step s ev s') (hdisciplined : Disciplined ev)
    (hclear : Clear ev) : Sound s' := by
  obtain ⟨htables, harena⟩ := hsound.wellFormed hstep
  refine ⟨htables, harena, fun c husable => ?_⟩
  have hbefore := hstep.before
  have hstays : ∀ X, s.LiveObject X → destroyed ev ≠ some X → s'.LiveObject X :=
    fun X => hstep.stays hsound.arena hsound.tables
  cases hdestroyed : destroyed ev with
  | some X =>
    obtain ⟨hold, hne⟩ := hsound.usable_ne hstep hdisciplined hclear hdestroyed husable
    apply hstays _ (hsound.live c hold)
    rw [hdestroyed]
    exact fun heq => hne (Option.some.inj heq).symm
  | none =>
    refine hstays _ ?_ (by simp [hdestroyed])
    rcases hstep.usable hsound.arena hsound.tables husable with ⟨c₀, hold, hobject⟩ |
      ⟨who, op, hop, hnames⟩ | ⟨ep, h, hop, hnext, hcap⟩
    · rw [← hobject]
      exact hsound.live c₀ hold
    · rw [← hbefore]
      exact hdisciplined.names who op c.object hop hnames
    · rw [← hbefore] at hnext hcap ⊢
      exact hclear.leftOver ep h c hop hnext hcap

/-- In every run that follows the documented discipline and in which no capability in
flight names an object that is destroyed, every capability in a table names a live object. -/
theorem noDangling_of_run {evs : List (Event τ)} (hrun : Run Step boot evs s)
    (hdisciplined : ∀ ev ∈ evs, Disciplined ev) (hclear : ∀ ev ∈ evs, Clear ev) :
    s.NoDangling := by
  have hevents := hrun.with_events fun ev hev => And.intro (hdisciplined ev hev) (hclear ev hev)
  have hsound : Sound s := hevents.invariant
    (fun _ _ _ hs hstep => hs.step hstep.2 hstep.1.1 hstep.1.2) boot_sound
  exact fun who hd c hlookup => hsound.live c (.table who hd hlookup)

/-! ## A destruction between a send and its receive -/

/-- The system after an operation of a debug build. -/
def performed (s : ObjectSystem τ) (op : ObjectOp τ) : ObjectSystem τ :=
  match (@exec τ _ ⟨true⟩ op).run s with
  | .ok _ s' | .err _ s' => s'
  | .panic _ => s

omit [Build] in
theorem performed_step (s : ObjectSystem τ) (op : ObjectOp τ) (reply : ObjectReply)
    (hexec : (@exec τ _ ⟨true⟩ op).run s = .ok reply (s.performed op)) :
    @Step τ _ ⟨true⟩ s ⟨s, op, .ok reply, s.performed op⟩ (s.performed op) :=
  @Step.mk τ _ ⟨true⟩ _ _ _ rfl rfl hexec

def taskOnly : ObjectSystem Bool := boot.performed (.createTask ⟨7, ⟨⟨0, 0⟩⟩⟩)

def taskAndEndpoint : ObjectSystem Bool := taskOnly.performed (.ipc (.createEndpoint ⟨7⟩))

/-- `false` may send on the endpoint. -/
def taskSender : ObjectSystem Bool :=
  taskAndEndpoint.performed (.ipc (.table false (.insertRoot ⟨.send, .endpoint ⟨⟨0, 0⟩⟩⟩)))

/-- It holds a capability to the task too. -/
def taskOwner : ObjectSystem Bool :=
  taskSender.performed (.ipc (.table false (.insertRoot ⟨.transfer, .task ⟨⟨0, 0⟩⟩⟩)))

/-- `true` may receive. -/
def taskHolder : ObjectSystem Bool :=
  taskOwner.performed (.ipc (.table true (.insertRoot ⟨.recv, .endpoint ⟨⟨0, 0⟩⟩⟩)))

/-- The capability to the task is in flight. -/
def taskSent : ObjectSystem Bool :=
  taskHolder.performed (.ipc (.send false ⟨0, 0⟩ ⟨1, 2, 3, 4⟩ (some ⟨1, 0⟩)))

def taskGone : ObjectSystem Bool := taskSent.performed (.destroyTask ⟨⟨0, 0⟩⟩)

def taskReceived : ObjectSystem Bool := taskGone.performed (.ipc (.recv true ⟨0, 0⟩))

/-- The capability to the task is dropped instead. -/
def taskDropped : ObjectSystem Bool :=
  taskHolder.performed (.ipc (.table false (.capDrop ⟨1, 0⟩)))

omit [DecidableEq τ] [Build] in
/-- An operation that neither names an object nor destroys one. -/
theorem disciplined_of_none (hnames : ∀ who op, ev.op = .ipc (.table who op) → op.names = none)
    (hdestroyed : destroyed ev = none) : Disciplined ev where
  names who op X hop hX := by
    rw [hnames who op hop] at hX
    cases hX
  unreferenced X who hX := by
    rw [hdestroyed] at hX
    cases hX

omit [DecidableEq τ] [Build] in
theorem disciplined_insertRoot {who : τ} (hop : ev.op = .ipc (.table who (.insertRoot c)))
    (hlive : ev.before.LiveObject c.object) : Disciplined ev where
  names who' op X hop' hX := by
    rw [hop] at hop'
    cases hop'
    cases hX
    exact hlive
  unreferenced X who' hX := by
    rw [destroyed, hop] at hX
    cases hX

omit [DecidableEq τ] [Build] in
theorem disciplined_destroyTask {handle : TaskHandle} (hop : ev.op = .destroyTask handle)
    (hscan : ∀ who, (ev.before.ipc.tables who).referencesObject (.task handle) = false) :
    Disciplined ev where
  names who op X hop' := by
    rw [hop] at hop'
    cases hop'
  unreferenced X who hX := by
    rw [destroyed, hop] at hX
    cases hreply : ev.reply with
    | ok r =>
      rw [hreply] at hX
      cases hX
      exact hscan who
    | error err =>
      rw [hreply] at hX
      cases hX

omit [DecidableEq τ] [Build] in
/-- Without a send nothing is in flight. -/
theorem clear_of_new (hnew : ev.before.ipc.queues = IpcQueues.new) : Clear ev where
  inFlight X h c _ _ _ hcap := by
    rw [hnew, effective_new] at hcap
    cases hcap
  leftOver ep h c _ _ hcap := by
    rw [hnew, effective_new] at hcap
    cases hcap

omit [DecidableEq τ] [Build] in
theorem taskHolder_run : ∃ evs : List (Event Bool),
    @Run _ _ (@Step Bool _ ⟨true⟩) boot evs taskHolder ∧ evs.length = 5 ∧
    ∀ ev ∈ evs, Disciplined ev ∧ Clear ev := by
  have hcreate := performed_step (boot : ObjectSystem Bool) (.createTask ⟨7, ⟨⟨0, 0⟩⟩⟩)
    (.task ⟨⟨0, 0⟩⟩) (by with_unfolding_all rfl)
  have hendpoint := performed_step taskOnly (.ipc (.createEndpoint ⟨7⟩))
    (.ipc (.endpoint ⟨⟨0, 0⟩⟩)) (by with_unfolding_all rfl)
  have hsend := performed_step taskAndEndpoint
    (.ipc (.table false (.insertRoot ⟨.send, .endpoint ⟨⟨0, 0⟩⟩⟩))) (.ipc (.table (.handle ⟨0, 0⟩)))
    (by with_unfolding_all rfl)
  have htask := performed_step taskSender
    (.ipc (.table false (.insertRoot ⟨.transfer, .task ⟨⟨0, 0⟩⟩⟩)))
    (.ipc (.table (.handle ⟨1, 0⟩))) (by with_unfolding_all rfl)
  have hrecv := performed_step taskOwner
    (.ipc (.table true (.insertRoot ⟨.recv, .endpoint ⟨⟨0, 0⟩⟩⟩)))
    (.ipc (.table (.handle ⟨0, 0⟩))) (by with_unfolding_all rfl)
  let _ : Build := ⟨true⟩
  have hrun := Run.cons hcreate (.cons hendpoint (.cons hsend (.cons htask (.single hrecv))))
  refine ⟨_, hrun, rfl, ?_⟩
  simp only [List.forall_mem_cons, List.not_mem_nil, false_implies, implies_true, and_true]
  refine ⟨⟨disciplined_of_none (by simp) rfl, clear_of_new rfl⟩,
    ⟨disciplined_of_none (by simp) rfl, clear_of_new ?_⟩,
    ⟨disciplined_insertRoot rfl ?_, clear_of_new ?_⟩,
    ⟨disciplined_insertRoot rfl ?_, clear_of_new ?_⟩,
    ⟨disciplined_insertRoot rfl ?_, clear_of_new ?_⟩⟩
  all_goals with_unfolding_all rfl

omit [DecidableEq τ] [Build] in
/-- No table references the task when it is destroyed, and the receiver then has a
capability that names it. -/
theorem dangling_of_run : ∃ evs : List (Event Bool),
    @Run _ _ (@Step Bool _ ⟨true⟩) boot evs taskReceived ∧ (∀ ev ∈ evs, Disciplined ev) ∧
    ¬ taskReceived.NoDangling := by
  obtain ⟨setup, hsetup, _, hall⟩ := taskHolder_run
  have hsend := performed_step taskHolder
    (.ipc (.send false ⟨0, 0⟩ ⟨1, 2, 3, 4⟩ (some ⟨1, 0⟩))) (.ipc (.sent .enqueued))
    (by with_unfolding_all rfl)
  have hdestroy := performed_step taskSent (.destroyTask ⟨⟨0, 0⟩⟩) .destroyed
    (by with_unfolding_all rfl)
  have hrecv := performed_step taskGone (.ipc (.recv true ⟨0, 0⟩))
    (.ipc (.received (.received ⟨1, 2, 3, 4⟩ (some ⟨1, 0⟩)))) (by with_unfolding_all rfl)
  let _ : Build := ⟨true⟩
  have hscan : ∀ who, (taskSent.ipc.tables who).referencesObject (.task ⟨⟨0, 0⟩⟩) = false := by
    intro who
    cases who <;> with_unfolding_all rfl
  have hrun := hsetup.append (Run.cons hsend (.cons hdestroy (.single hrecv)))
  refine ⟨_, hrun, fun ev hev => ?_, fun hnone => ?_⟩
  · rcases List.mem_append.mp hev with hmem | hmem
    · exact (hall ev hmem).1
    · simp only [List.mem_cons, List.not_mem_nil, or_false] at hmem
      rcases hmem with rfl | rfl | rfl
      · exact disciplined_of_none (by simp) rfl
      · exact disciplined_destroyTask rfl hscan
      · exact disciplined_of_none (by simp) rfl
  · have hdead := hnone true ⟨1, 0⟩ ⟨.transfer, .task ⟨⟨0, 0⟩⟩⟩ (by with_unfolding_all rfl)
    have hgone : (getTask taskReceived.taskArena ⟨⟨0, 0⟩⟩).isSome = false := by
      with_unfolding_all rfl
    have hlive : (getTask taskReceived.taskArena ⟨⟨0, 0⟩⟩).isSome = true := hdead
    rw [hgone] at hlive
    cases hlive

omit [DecidableEq τ] [Build] in
/-- The holder drops its capability to the task before the task is destroyed. -/
theorem noDangling_of_run_dropped : ∃ (evs : List (Event Bool)) (s' : ObjectSystem Bool),
    @Run _ _ (@Step Bool _ ⟨true⟩) boot evs s' ∧ evs.length = 7 ∧ s'.NoDangling := by
  obtain ⟨setup, hsetup, hlength, hall⟩ := taskHolder_run
  have hdrop := performed_step taskHolder (.ipc (.table false (.capDrop ⟨1, 0⟩)))
    (.ipc (.table .done)) (by with_unfolding_all rfl)
  have hdestroy := performed_step taskDropped (.destroyTask ⟨⟨0, 0⟩⟩) .destroyed
    (by with_unfolding_all rfl)
  let _ : Build := ⟨true⟩
  have hscan : ∀ who, (taskDropped.ipc.tables who).referencesObject (.task ⟨⟨0, 0⟩⟩) = false := by
    intro who
    cases who <;> with_unfolding_all rfl
  have hempty : taskDropped.ipc.queues = IpcQueues.new := by with_unfolding_all rfl
  have hempty' : taskHolder.ipc.queues = IpcQueues.new := by with_unfolding_all rfl
  have hrun := hsetup.append (Run.cons hdrop (.single hdestroy))
  refine ⟨_, _, hrun, ?_, noDangling_of_run hrun (fun ev hev => ?_) fun ev hev => ?_⟩
  rotate_left
  · rcases List.mem_append.mp hev with hmem | hmem
    · exact (hall ev hmem).1
    · simp only [List.mem_cons, List.not_mem_nil, or_false] at hmem
      rcases hmem with rfl | rfl
      · exact disciplined_of_none (by simp [TableOp.names]) rfl
      · exact disciplined_destroyTask rfl hscan
  · rcases List.mem_append.mp hev with hmem | hmem
    · exact (hall ev hmem).2
    · simp only [List.mem_cons, List.not_mem_nil, or_false] at hmem
      rcases hmem with rfl | rfl
      · exact clear_of_new hempty'
      · exact clear_of_new hempty
  rw [List.length_append, hlength]
  rfl

end ObjectSystem

end Tyrne
