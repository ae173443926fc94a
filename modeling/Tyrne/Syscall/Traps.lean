import Tyrne.Cap.Handles
import Tyrne.Ipc.Provenance
import Tyrne.Syscall.Dispatch

/-!
# Runs of traps

A trap dispatches a frame with the table of its caller and the shared endpoints. Whatever it
borrows besides, it is a send, a receive or a refused call of the IPC system, or leaves the
system as it is. So a run of traps inherits what the IPC system preserves.
-/

namespace Tyrne

open CapabilityTable IpcQueues IpcSystem SyscallContext

/-- One dispatch with the table `who`, and the shared state before and after it. -/
structure Trap (τ : Type) where
  before : IpcSystem τ
  who : τ
  args : SyscallArgs
  effect : SyscallEffect
  after : IpcSystem τ

section Dispatch

variable {AS : Type} [Mmu AS] [Build] {ctx ctx' : SyscallContext AS} {args : SyscallArgs}
  {effect : SyscallEffect}

/-- A dispatched send returns the outcome of the call, or its error. -/
theorem dispatch_send (hnumber : SyscallNumber.decode args.number = some .send)
    (hrun : (dispatch args).run ctx = .ok effect ctx') :
    (∃ outcome, (ipcSend (decodeRequiredCapHandle (x0 args.args)) (decodeSendMessage args.args)
        (decodeCapHandle (x5 args.args))).run ctx.toIpcCall = .ok outcome ctx'.toIpcCall ∧
      effect = .resume (SyscallReturn.ok.withPayload 0 (encodeSendOutcome outcome))) ∨
    ∃ err, (ipcSend (decodeRequiredCapHandle (x0 args.args)) (decodeSendMessage args.args)
        (decodeCapHandle (x5 args.args))).run ctx.toIpcCall = .err err ctx'.toIpcCall ∧
      effect = .resume (.error (.ipc err)) := by
  unfold dispatch at hrun
  rw [hnumber] at hrun
  obtain ⟨ret, rfl, hsettle⟩ := resume_settled hrun
  rcases settle_onIpc hsettle with ⟨outcome, hcall, rfl⟩ | ⟨err, hcall, rfl⟩
  · exact Or.inl ⟨outcome, hcall, rfl⟩
  · exact Or.inr ⟨err, hcall, rfl⟩

/-- So does a receive. -/
theorem dispatch_recv (hnumber : SyscallNumber.decode args.number = some .recv)
    (hrun : (dispatch args).run ctx = .ok effect ctx') :
    (∃ outcome, (ipcRecv (decodeRequiredCapHandle (x0 args.args))).run ctx.toIpcCall =
        .ok outcome ctx'.toIpcCall ∧ effect = .resume (encodeRecvOutcome outcome)) ∨
    ∃ err, (ipcRecv (decodeRequiredCapHandle (x0 args.args))).run ctx.toIpcCall =
        .err err ctx'.toIpcCall ∧ effect = .resume (.error (.ipc err)) := by
  unfold dispatch at hrun
  rw [hnumber] at hrun
  obtain ⟨ret, rfl, hsettle⟩ := resume_settled hrun
  rcases settle_onIpc hsettle with ⟨outcome, hcall, rfl⟩ | ⟨err, hcall, rfl⟩
  · exact Or.inl ⟨outcome, hcall, rfl⟩
  · exact Or.inr ⟨err, hcall, rfl⟩

/-- No other number touches a capability or an endpoint. -/
theorem dispatch_other (hsend : SyscallNumber.decode args.number ≠ some .send)
    (hrecv : SyscallNumber.decode args.number ≠ some .recv)
    (hrun : (dispatch args).run ctx = .ok effect ctx') : ctx'.toIpcCall = ctx.toIpcCall := by
  unfold dispatch at hrun
  cases hnumber : SyscallNumber.decode args.number with
  | none =>
    rw [hnumber] at hrun
    cases hrun
    rfl
  | some number =>
    rw [hnumber] at hrun hsend hrecv
    cases number with
    | send => exact absurd rfl hsend
    | recv => exact absurd rfl hrecv
    | taskYield =>
      dsimp only at hrun
      rw [Prog.get_bind_run] at hrun
      split at hrun <;> cases hrun <;> rfl
    | taskExit =>
      dsimp only at hrun
      rw [Prog.get_bind_run] at hrun
      split at hrun <;> cases hrun <;> rfl
    | consoleWrite =>
      obtain ⟨ret, rfl, hsettle⟩ := resume_settled hrun
      have hwrites : (sysConsoleWrite args.args : SyscallM AS _).Keeps toIpcCall :=
        sysConsoleWrite_keeps args.args
      exact settle_keeps hwrites ctx ctx' (by rw [hsettle]; rfl)

end Dispatch

/-! ## One trap -/

variable {τ : Type} [DecidableEq τ] {s s' s₀ s₁ : IpcSystem τ} {tr : Trap τ} {h : EndpointHandle}

/-- The dispatch returned; the console, memory and the window it borrowed are anything. -/
structure TrapStep (AS : Type) [Build] [Mmu AS] (s : IpcSystem τ) (tr : Trap τ)
    (s' : IpcSystem τ) : Prop where
  before : tr.before = s
  after : tr.after = s'
  exec : ∃ ctx ctx' : SyscallContext AS, ctx.toIpcCall = s.call tr.who ∧
    (dispatch tr.args).run ctx = .ok tr.effect ctx' ∧ s' = s.endCall tr.who ctx'.toIpcCall

namespace Trap

/-- The event of the IPC system that the trap is, with the operation `op`. -/
def event (tr : Trap τ) (op : IpcOp τ) (reply : Except SystemError IpcReply) :
    IpcSystem.Event τ := ⟨tr.before, op, reply, tr.after⟩

/-- The send of the frame. -/
def sendOp (tr : Trap τ) : IpcOp τ :=
  .send tr.who (decodeRequiredCapHandle (x0 tr.args.args)) (decodeSendMessage tr.args.args)
    (decodeCapHandle (x5 tr.args.args))

/-- The receive of the frame. -/
def recvOp (tr : Trap τ) : IpcOp τ := .recv tr.who (decodeRequiredCapHandle (x0 tr.args.args))

/-- The endpoint that `x0` names. -/
def endpoint (tr : Trap τ) : Option EndpointHandle :=
  target (tr.before.tables tr.who) (decodeRequiredCapHandle (x0 tr.args.args))

/-- The trap vacates the slot `i` of the table `w`. -/
def Frees (w : τ) (i : Index) (tr : Trap τ) : Prop :=
  (tr.before.tables w).Occupied i ∧ ¬ (tr.after.tables w).Occupied i

instance (w : τ) (i : Index) (tr : Trap τ) : Decidable (tr.Frees w i) :=
  inferInstanceAs (Decidable (_ ∧ _))

/-- How often the traps free the slot `i` of the table `w`. -/
def freeCount (w : τ) (i : Index) (trs : List (Trap τ)) : ℕ := trs.countP fun tr => tr.Frees w i

variable [Build]

/-- A send on `h` that reports success. -/
def Sends (h : EndpointHandle) (tr : Trap τ) : Prop :=
  SyscallNumber.decode tr.args.number = some .send ∧ tr.endpoint = some h ∧
    ∃ ret, tr.effect = .resume ret ∧ ret.status = okStatus

/-- A receive on `h` that reports a message, in the registers `ret`. -/
def Reports (h : EndpointHandle) (tr : Trap τ) (ret : SyscallReturn) : Prop :=
  SyscallNumber.decode tr.args.number = some .recv ∧ tr.endpoint = some h ∧
    tr.effect = .resume ret ∧ ret.status = okStatus ∧ ret.x1 = recvOutcomeReceived

/-- What a trap is to the IPC system. -/
inductive Acts (tr : Trap τ) : Prop
  | quiet : SyscallNumber.decode tr.args.number ≠ some .send →
      SyscallNumber.decode tr.args.number ≠ some .recv → tr.after = tr.before → Acts tr
  | refused {op : IpcOp τ} {err : IpcError} : tr.effect = .resume (.error (.ipc err)) →
      Step tr.before (tr.event op (.error (.ipc err))) tr.after → Acts tr
  | sent {outcome : SendOutcome} : SyscallNumber.decode tr.args.number = some .send →
      tr.effect = .resume (SyscallReturn.ok.withPayload 0 (encodeSendOutcome outcome)) →
      Step tr.before (tr.event tr.sendOp (.ok (.sent outcome))) tr.after → Acts tr
  | received {outcome : RecvOutcome} : SyscallNumber.decode tr.args.number = some .recv →
      tr.effect = .resume (encodeRecvOutcome outcome) →
      Step tr.before (tr.event tr.recvOp (.ok (.received outcome))) tr.after → Acts tr

end Trap

variable [Build] {AS : Type} [Mmu AS]

/-- Every trap is one of these. -/
theorem TrapStep.acts (hstep : TrapStep AS s tr s') : tr.Acts := by
  obtain ⟨before, who, args, effect, after⟩ := tr
  obtain ⟨rfl, rfl, ctx, ctx', hborrow, hrun, hafter⟩ := hstep
  dsimp only at hborrow hrun hafter
  by_cases hsend : SyscallNumber.decode args.number = some .send
  · rcases dispatch_send hsend hrun with ⟨outcome, hcall, heffect⟩ | ⟨err, hcall, heffect⟩
    · rw [hborrow] at hcall
      refine .sent hsend heffect ⟨rfl, rfl, ?_⟩
      rw [hafter]
      exact Prog.bind_ok (Prog.zoom_ok hcall)
    · rw [hborrow] at hcall
      have hexec : (IpcSystem.exec (.send who (decodeRequiredCapHandle (x0 args.args))
          (decodeSendMessage args.args) (decodeCapHandle (x5 args.args)))).run before =
          .err (.ipc err) after := by
        rw [hafter]
        exact Prog.bind_err (Prog.zoom_err hcall)
      exact .refused heffect ⟨rfl, rfl, hexec⟩
  by_cases hrecv : SyscallNumber.decode args.number = some .recv
  · rcases dispatch_recv hrecv hrun with ⟨outcome, hcall, heffect⟩ | ⟨err, hcall, heffect⟩
    · rw [hborrow] at hcall
      refine .received hrecv heffect ⟨rfl, rfl, ?_⟩
      rw [hafter]
      exact Prog.bind_ok (Prog.zoom_ok hcall)
    · rw [hborrow] at hcall
      have hexec :
          (IpcSystem.exec (.recv who (decodeRequiredCapHandle (x0 args.args)))).run before =
          .err (.ipc err) after := by
        rw [hafter]
        exact Prog.bind_err (Prog.zoom_err hcall)
      exact .refused heffect ⟨rfl, rfl, hexec⟩
  · refine .quiet hsend hrecv ?_
    rw [hafter, dispatch_other hsend hrecv hrun, hborrow, endCall_call]

/-! ## The tables of a run -/

section Tables

variable {t t' : CapabilityTable}

omit [Build] in
theorem unchanged_effect (t : CapabilityTable) : ∃ op reply, CapabilityTable.Effect t op reply t :=
  ⟨_, _, .failed (.capDrop ⟨0, 0⟩) .invalidHandle⟩

theorem taken_effect {transfer : Option CapHandle} {owned : Option Capability}
    (hwf : t.WellFormed) (htaken : Taken t transfer owned t') :
    ∃ op reply, CapabilityTable.Effect t op reply t' := by
  cases htaken with
  | nothing => exact unchanged_effect _
  | @cap xfer c _ hrun =>
    have hexec : (TableOp.capTake xfer).exec.run t = .ok (.taken c) t' := Prog.bind_ok hrun
    exact ⟨_, _, CapabilityTable.Effect.of_ok hwf hexec⟩

theorem installed_effect {cap : Option Capability} {xfer : Option CapHandle}
    (hwf : t.WellFormed) (hinst : Installed t cap xfer t') :
    ∃ op reply, CapabilityTable.Effect t op reply t' := by
  cases hinst with
  | nothing => exact unchanged_effect _
  | @cap c hd _ hrun =>
    have hexec : (TableOp.insertRoot c).exec.run t = .ok (.handle hd) t' := Prog.bind_ok hrun
    exact ⟨_, _, CapabilityTable.Effect.of_ok hwf hexec⟩

/-- An operation of the system does to each table what one operation on it does. -/
theorem table_effect {op : IpcOp τ} {reply : Except SystemError IpcReply}
    (hwf : ∀ who, (s.tables who).WellFormed) (heffect : IpcSystem.Effect s op reply s') (w : τ) :
    ∃ op reply, CapabilityTable.Effect (s.tables w) op reply (s'.tables w) := by
  have hsame := unchanged_effect (s.tables w)
  have hset : ∀ {who : τ} {u : CapabilityTable},
      (∃ op reply, CapabilityTable.Effect (s.tables who) op reply u) →
      ∃ op reply, CapabilityTable.Effect (s.tables w) op reply ((s.setTable who u).tables w) := by
    intro who u hone
    by_cases hw : w = who
    · subst hw
      simpa [setTable] using hone
    · simpa [setTable, hw] using hsame
  cases heffect with
  | failed => exact hsame
  | table heffect => exact hset ⟨_, _, heffect⟩
  | createEndpoint => exact hsame
  | destroyEndpoint => exact hsame
  | createNotification => exact hsame
  | destroyNotification => exact hsame
  | notify => exact hsame
  | send hend =>
    cases hend with
    | delivered _ _ _ _ htaken => exact hset (taken_effect (hwf _) htaken)
    | enqueued _ _ _ _ htaken => exact hset (taken_effect (hwf _) htaken)
  | recv hend =>
    cases hend with
    | received _ _ _ hinst => exact hset (installed_effect (hwf _) hinst)
    | registered => exact hset (unchanged_effect _)
  | cancelRecv hend =>
    cases hend with
    | cancelled => exact hset (unchanged_effect _)
    | nothing => exact hset (unchanged_effect _)

end Tables

/-- A trap keeps the tables well formed and the endpoints that are live. -/
structure Trap.Keeps (tr : Trap τ) : Prop where
  wellFormed : ∀ who, (tr.after.tables who).WellFormed
  epArena : tr.after.epArena = tr.before.epArena
  table : ∀ w, ∃ op reply,
    CapabilityTable.Effect (tr.before.tables w) op reply (tr.after.tables w)

namespace Trap.Acts

variable (hacts : tr.Acts) (hwf : ∀ who, (tr.before.tables who).WellFormed)
include hwf

omit [Mmu AS] in
theorem keeps_of_step {op : IpcOp τ} {reply : Except SystemError IpcReply}
    (hstep : Step tr.before (tr.event op reply) tr.after)
    (harena : IpcSystem.Effect tr.before op reply tr.after → tr.after.epArena = tr.before.epArena) :
    tr.Keeps := by
  have heffect : IpcSystem.Effect tr.before op reply tr.after := IpcSystem.Effect.of_step hwf hstep
  exact ⟨heffect.wellFormed hwf, harena heffect, table_effect hwf heffect⟩

include hacts

theorem keeps : tr.Keeps := by
  cases hacts with
  | quiet _ _ hafter =>
    refine ⟨?_, ?_, fun w => ?_⟩
    · rwa [hafter]
    · rw [hafter]
    · rw [hafter]
      exact unchanged_effect _
  | refused _ hstep =>
    refine keeps_of_step hwf hstep fun heffect => ?_
    generalize tr.after = after at heffect
    cases heffect
    rfl
  | sent _ _ hstep =>
    refine keeps_of_step hwf hstep fun heffect => ?_
    unfold sendOp at heffect
    generalize tr.after = after at heffect
    cases heffect with
    | send hend => cases hend <;> rfl
  | received _ _ hstep =>
    refine keeps_of_step hwf hstep fun heffect => ?_
    unfold recvOp at heffect
    generalize tr.after = after at heffect
    cases heffect with
    | recv hend => cases hend <;> rfl

end Trap.Acts

/-! ## What an endpoint holds -/

omit [DecidableEq τ] [Mmu AS] [Build] in
theorem held_length (s : IpcSystem τ) (h : EndpointHandle) : (held s h).length ≤ 1 := by
  unfold held
  cases (s.queues.effective h).held <;> simp

omit [Build] in
theorem encodeRecvOutcome_received {outcome : RecvOutcome}
    (hcode : (encodeRecvOutcome outcome).x1 = recvOutcomeReceived) :
    ∃ msg cap, outcome = .received msg cap := by
  cases outcome with
  | received msg cap => exact ⟨msg, cap, rfl⟩
  | pending => exact absurd hcode (by decide)

namespace Trap

variable {p : Message × Option Capability}

/-- The messages of a trap that is a step of the system. -/
theorem messages {op : IpcOp τ} {reply : Except SystemError IpcReply}
    (hstep : Step tr.before (tr.event op reply) tr.after)
    (hwf : ∀ who, (tr.before.tables who).WellFormed) (hlive : Live tr.before.epArena h) :
    held tr.before h ++ accepted h (tr.event op reply) =
      returned h (tr.event op reply) ++ held tr.after h := by
  let ev : IpcSystem.Event τ := tr.event op reply
  have heffect : IpcSystem.Effect ev.before ev.op ev.reply ev.after :=
    IpcSystem.Effect.of_step hwf hstep
  exact heffect.messages hwf (hlive.putsApart _)

/-- A message stays in its endpoint until a trap reports it. -/
theorem Acts.held_stays (hacts : tr.Acts) (hwf : ∀ who, (tr.before.tables who).WellFormed)
    (hlive : Live tr.before.epArena h) (hquiet : ∀ ret, ¬ tr.Reports h ret)
    (hheld : held tr.before h = [p]) : held tr.after h = [p] := by
  have hfits := held_length tr.after h
  cases hacts with
  | quiet _ _ hafter => rwa [hafter]
  | @refused op err _ hstep =>
    have hmessages := messages hstep hwf hlive
    have haccepted : accepted h (tr.event op (.error (.ipc err))) = [] := by
      unfold accepted
      cases op <;> rfl
    have hreturned : returned h (tr.event op (.error (.ipc err))) = [] := by
      unfold returned
      cases op <;> rfl
    rw [haccepted, hreturned, hheld] at hmessages
    exact hmessages.symm
  | @sent outcome _ _ hstep =>
    have hmessages := messages hstep hwf hlive
    have hreturned : returned h (tr.event tr.sendOp (.ok (.sent outcome))) = [] := rfl
    rw [hreturned, hheld, List.nil_append] at hmessages
    rw [← hmessages] at hfits ⊢
    have hnone : accepted h (tr.event tr.sendOp (.ok (.sent outcome))) = [] := by
      simpa using hfits
    rw [hnone]
    rfl
  | @received outcome hnumber heffect hstep =>
    have hmessages := messages hstep hwf hlive
    have haccepted : accepted h (tr.event tr.recvOp (.ok (.received outcome))) = [] := rfl
    have hreturned : returned h (tr.event tr.recvOp (.ok (.received outcome))) = [] := by
      cases outcome with
      | pending => rfl
      | received msg cap =>
        have hother : tr.endpoint ≠ some h := by
          intro hnames
          exact hquiet _ ⟨hnumber, hnames, heffect, rfl, rfl⟩
        exact if_neg hother
    rw [haccepted, hreturned, hheld] at hmessages
    exact hmessages.symm

end Trap

/-! ## Runs -/

section Runs

variable {trs : List (Trap τ)}

/-- The states of a run of traps have well-formed tables. -/
theorem traps_wellFormed (hrun : Run (TrapStep AS) s trs s')
    (hwf : ∀ who, (s.tables who).WellFormed) : ∀ who, (s'.tables who).WellFormed := by
  refine hrun.invariant (I := fun s => ∀ who, (s.tables who).WellFormed) ?_ hwf
  intro s tr s' hwf hstep
  have hacts := hstep.acts
  obtain ⟨rfl, rfl, -⟩ := hstep
  exact (hacts.keeps hwf).wellFormed

/-- Over a run of traps the generation of a slot grows by the number of times it was freed. -/
theorem generation_of_traps (hrun : Run (TrapStep AS) s trs s')
    (hwf : ∀ who, (s.tables who).WellFormed) (w : τ) (i : Index) :
    ((s'.tables w).slots i).generation =
      ((s.tables w).slots i).generation + BitVec.ofNat 32 (Trap.freeCount w i trs) := by
  unfold Trap.freeCount
  rw [← sum_countP]
  have hsteps := hrun.with_invariant (I := fun s => ∀ who, (s.tables who).WellFormed)
    (fun s tr s' hwf hstep => traps_wellFormed (.single hstep) hwf) hwf
  apply hsteps.sum_cost (fun s => ((s.tables w).slots i).generation)
  intro s tr s' hone
  obtain ⟨hwf, hstep⟩ := hone
  have hacts := hstep.acts
  obtain ⟨rfl, rfl, -⟩ := hstep
  obtain ⟨op, reply, heffect⟩ := (hacts.keeps hwf).table w
  exact heffect.generation

/-- Over a run of traps in which none reports it, a message stays in its endpoint. -/
theorem held_of_traps {p : Message × Option Capability} (hrun : Run (TrapStep AS) s trs s')
    (hwf : ∀ who, (s.tables who).WellFormed) (hlive : Live s.epArena h)
    (hheld : held s h = [p]) (hquiet : ∀ tr ∈ trs, ∀ ret, ¬ tr.Reports h ret) :
    Live s'.epArena h ∧ held s' h = [p] := by
  induction hrun with
  | nil => exact ⟨hlive, hheld⟩
  | cons hstep _ ih =>
    have hacts := hstep.acts
    obtain ⟨rfl, rfl, -⟩ := hstep
    have hkeeps := hacts.keeps hwf
    have hstays := hacts.held_stays hwf hlive (hquiet _ List.mem_cons_self) hheld
    have hrest := fun tr htr => hquiet tr (List.mem_cons_of_mem _ htr)
    exact ih hkeeps.wellFormed (hkeeps.epArena ▸ hlive) hstays hrest

end Runs

end Tyrne
