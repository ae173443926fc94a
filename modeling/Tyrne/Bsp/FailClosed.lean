import Tyrne.Bsp.Runs
import Tyrne.Ipc.Isolation
import Tyrne.Syscall.Console

/-!
# Dispatch fails closed

No register frame makes the dispatcher panic, a failure that it reports has changed
nothing, and without a running task every frame is such a failure.
-/

namespace Tyrne

open SyscallContext CapabilityTable

section

variable {AS : Type} {ctx ctx' : SyscallContext AS}

/-- The endpoints, the queues and the caller's table are those of a system that a run has
set up in which no endpoint was destroyed while its state carried a capability. -/
def SyscallContext.Reachable [Build] (ctx : SyscallContext AS) : Prop :=
  ∃ (τ : Type) (_ : DecidableEq τ) (evs : List (IpcSystem.Event τ)) (s : IpcSystem τ) (who : τ),
    Run IpcSystem.Step IpcSystem.boot evs s ∧ (∀ ev ∈ evs, IpcSystem.CapDrained ev) ∧
    ctx.toIpcCall = s.call who

/-- The context of a trap without a running task. -/
structure SyscallContext.FailClosed (ctx : SyscallContext AS) : Prop where
  table : ctx.table = CapabilityTable.new
  userWindow : ctx.userWindow = .empty
  noTask : ctx.hasCurrentTask = false

/-- Nothing a caller can observe has changed. -/
structure Untouched (ctx ctx' : SyscallContext AS) : Prop where
  table : ctx'.table = ctx.table
  epArena : ctx'.epArena = ctx.epArena
  effective : ∀ h, Live ctx.epArena h → ctx'.queues.effective h = ctx.queues.effective h
  console : ctx'.console = ctx.console

theorem Untouched.refl (ctx : SyscallContext AS) : Untouched ctx ctx :=
  ⟨rfl, rfl, fun _ _ => rfl, rfl⟩

/-! ## An IPC syscall -/

/-- An IPC call that returns gives a syscall that returns; if it fails, the failure is
in the status. -/
theorem settle_onIpc_run {α : Type} {call : IpcM α} {f : α → SyscallReturn}
    (hcall : (∃ a c, call.run ctx.toIpcCall = .ok a c) ∨
      ∃ err q, call.run ctx.toIpcCall = .err err { ctx.toIpcCall with queues := q } ∧
        Refused ctx.epArena ctx.queues q)
    (hf : ∀ a, (f a).status = okStatus) :
    ∃ ret ctx', (settle (do return f (← onIpc call) : SyscallM AS _)).run ctx = .ok ret ctx' ∧
      (ret.status ≠ okStatus → Untouched ctx ctx') := by
  rcases hcall with ⟨a, c, hrun⟩ | ⟨err, q, hrun, hq⟩
  · have hok : (do return f (← onIpc call) : SyscallM AS _).run ctx =
        .ok (f a) { ctx with toIpcCall := c } := Prog.bind_ok (Prog.zoom_ok hrun)
    exact ⟨_, _, settle_ok hok, fun hcon => absurd (hf a) hcon⟩
  · have herr : (do return f (← onIpc call) : SyscallM AS _).run ctx = .err (.ipc err)
        { ctx with toIpcCall := { ctx.toIpcCall with queues := q } } :=
      Prog.bind_err (Prog.zoom_err hrun)
    exact ⟨_, _, settle_err herr, fun _ => ⟨rfl, rfl, hq.agree, rfl⟩⟩

theorem encodeRecvOutcome_status (outcome : RecvOutcome) :
    (encodeRecvOutcome outcome).status = okStatus := by
  cases outcome with
  | received msg cap => rfl
  | pending => rfl

variable [Build] {args : SyscallArgs}

theorem settle_sysSend (hwf : ctx.table.WellFormed) (howned : CapOwned ctx.epArena ctx.queues)
    (words : Vector (BitVec 64) 6) :
    ∃ ret ctx', (settle (sysSend words)).run ctx = .ok ret ctx' ∧
      (ret.status ≠ okStatus → Untouched ctx ctx') := by
  apply settle_onIpc_run
  · have hend := ipcSend_end (s := ctx.toIpcCall) hwf (decodeRequiredCapHandle words[0])
      (decodeSendMessage words) (decodeCapHandle words[5])
    generalize (ipcSend (decodeRequiredCapHandle words[0]) (decodeSendMessage words)
      (decodeCapHandle words[5])).run ctx.toIpcCall = r at hend
    cases hend with
    | refused hq => exact Or.inr ⟨_, _, rfl, hq⟩
    | undrained hlive hun => exact absurd hun (howned.not_undrained hlive)
    | delivered => exact Or.inl ⟨_, _, rfl⟩
    | enqueued => exact Or.inl ⟨_, _, rfl⟩
  · exact fun outcome => rfl

theorem settle_sysRecv (hwf : ctx.table.WellFormed) (howned : CapOwned ctx.epArena ctx.queues)
    (words : Vector (BitVec 64) 6) :
    ∃ ret ctx', (settle (sysRecv words)).run ctx = .ok ret ctx' ∧
      (ret.status ≠ okStatus → Untouched ctx ctx') := by
  apply settle_onIpc_run
  · have hend := ipcRecv_end (s := ctx.toIpcCall) hwf (decodeRequiredCapHandle words[0])
    generalize (ipcRecv (decodeRequiredCapHandle words[0])).run ctx.toIpcCall = r at hend
    cases hend with
    | refused hq => exact Or.inr ⟨_, _, rfl, hq⟩
    | undrained hlive hun => exact absurd hun (howned.not_undrained hlive)
    | received => exact Or.inl ⟨_, _, rfl⟩
    | registered => exact Or.inl ⟨_, _, rfl⟩
  · exact encodeRecvOutcome_status

variable [Mmu AS]

omit [Build] in
/-- A console write that is refused changes nothing. -/
theorem settle_sysConsoleWrite (htranslates : Translates ctx.taskAs ctx.memory)
    (words : Vector (BitVec 64) 6) :
    ∃ ret ctx', (settle (sysConsoleWrite words)).run ctx = .ok ret ctx' ∧
      (ret.status ≠ okStatus → Untouched ctx ctx') := by
  by_cases hgates : ConsoleGates ctx (decodeRequiredCapHandle words[0]) words[1].toNat
      words[2].toNat
  · exact ⟨_, _, settle_ok (sysConsoleWrite_ok htranslates hgates), fun hcon => absurd rfl hcon⟩
  · obtain ⟨err, herr⟩ := sysConsoleWrite_err htranslates hgates
    exact ⟨_, _, settle_err herr, fun _ => .refl ctx⟩

/-- Dispatch returns, and a failure it reports has changed nothing. -/
theorem dispatch_run (hwf : ctx.table.WellFormed) (howned : CapOwned ctx.epArena ctx.queues)
    (htranslates : Translates ctx.taskAs ctx.memory) (args : SyscallArgs) :
    ∃ effect ctx', (dispatch args).run ctx = .ok effect ctx' ∧
      ∀ ret, effect = .resume ret → ret.status ≠ okStatus → Untouched ctx ctx' := by
  have hresume : ∀ {m : SyscallM AS SyscallReturn},
      (∃ ret ctx', (settle m).run ctx = .ok ret ctx' ∧
        (ret.status ≠ okStatus → Untouched ctx ctx')) →
      ∃ effect ctx', (do return .resume (← settle m) :
          Prog (SyscallContext AS) Empty SyscallEffect).run ctx = .ok effect ctx' ∧
        ∀ ret, effect = .resume ret → ret.status ≠ okStatus → Untouched ctx ctx' := by
    intro m hm
    obtain ⟨ret, ctx', hrun, hfail⟩ := hm
    refine ⟨_, _, Prog.bind_ok hrun, fun ret' heq => ?_⟩
    cases heq
    exact hfail
  have hquiet : ∀ {effect : SyscallEffect}, ∃ effect' ctx',
      (pure effect : Prog (SyscallContext AS) Empty SyscallEffect).run ctx = .ok effect' ctx' ∧
        ∀ ret, effect' = .resume ret → ret.status ≠ okStatus → Untouched ctx ctx' :=
    ⟨_, _, rfl, fun _ _ _ => .refl ctx⟩
  unfold dispatch
  cases SyscallNumber.decode args.number with
  | none => exact hquiet
  | some number =>
    cases number with
    | send => exact hresume (settle_sysSend hwf howned args.args)
    | recv => exact hresume (settle_sysRecv hwf howned args.args)
    | consoleWrite => exact hresume (settle_sysConsoleWrite htranslates args.args)
    | taskYield =>
      dsimp only
      rw [Prog.get_bind_run]
      split
      · exact hquiet
      · exact hquiet
    | taskExit =>
      dsimp only
      rw [Prog.get_bind_run]
      split
      · exact hquiet
      · exact hquiet

/-! ## Without a running task -/

omit [Build] [Mmu AS] in
theorem new_resolves_nothing (hd : CapHandle) (e : SlotEntry) :
    ¬ Resolves CapabilityTable.new hd e := by
  intro hresolves
  have hentry := hresolves.entry
  cases hentry

omit [Build] [Mmu AS] in
theorem new_targets_nothing (epCap : CapHandle) (required : CapRights) (h : EndpointHandle) :
    ¬ Targets CapabilityTable.new epCap required h := by
  intro htarget
  obtain ⟨c, hlookup, _⟩ := htarget
  obtain ⟨e, he, _⟩ := lookup_eq_ok_iff.mp hlookup
  exact new_resolves_nothing epCap e he

/-- Without a running task every frame is a failure that changes nothing. -/
theorem dispatch_failClosed (hclosed : ctx.FailClosed) (args : SyscallArgs) :
    ∃ ret, ret.status ≠ okStatus ∧ (dispatch args).run ctx = .ok (.resume ret) ctx := by
  have hfails : ∀ {m : SyscallM AS SyscallReturn}, (∃ err, m.run ctx = .err err ctx) →
      ∃ ret, ret.status ≠ okStatus ∧ (do return .resume (← settle m) :
        Prog (SyscallContext AS) Empty SyscallEffect).run ctx = .ok (.resume ret) ctx := by
    intro m hm
    obtain ⟨err, hrun⟩ := hm
    exact ⟨.error err, err.asStatus_ne_ok, Prog.bind_ok (settle_err hrun)⟩
  have hrefuses : ∀ epCap required, ∃ err,
      (validateEpCap epCap required).run ctx.toIpcCall = .err err ctx.toIpcCall := by
    intro epCap required
    rcases validateEpCap_run ctx.toIpcCall epCap required with ⟨h, htarget, _⟩ | ⟨_, hrun⟩
    · rw [hclosed.table] at htarget
      exact absurd htarget (new_targets_nothing _ _ _)
    · exact hrun
  have hnoTask : ¬ ctx.hasCurrentTask = true := by
    rw [hclosed.noTask]
    exact Bool.false_ne_true
  unfold dispatch
  cases SyscallNumber.decode args.number with
  | none => exact ⟨_, SyscallError.asStatus_ne_ok .badSyscallNumber, rfl⟩
  | some number =>
    cases number with
    | send =>
      obtain ⟨err, hrun⟩ := hrefuses (decodeRequiredCapHandle (x0 args.args)) .send
      have hsend : (ipcSend (decodeRequiredCapHandle (x0 args.args)) (decodeSendMessage args.args)
          (decodeCapHandle (x5 args.args))).run ctx.toIpcCall = .err err ctx.toIpcCall :=
        Prog.bind_err hrun
      exact hfails ⟨_, Prog.bind_err (Prog.zoom_err hsend)⟩
    | recv =>
      obtain ⟨err, hrun⟩ := hrefuses (decodeRequiredCapHandle (x0 args.args)) .recv
      have hrecv : (ipcRecv (decodeRequiredCapHandle (x0 args.args))).run ctx.toIpcCall =
          .err err ctx.toIpcCall := Prog.bind_err hrun
      exact hfails ⟨_, Prog.bind_err (Prog.zoom_err hrecv)⟩
    | consoleWrite =>
      apply hfails
      rcases validateDebugConsoleCap_cases ctx.table (decodeRequiredCapHandle (x0 args.args)) with
        ⟨hmay, _⟩ | ⟨_, err, hrun⟩
      · obtain ⟨e, he, _⟩ := hmay
        rw [hclosed.table] at he
        exact absurd he (new_resolves_nothing _ _)
      · exact ⟨_, Prog.bind_err (Prog.zoom_err hrun)⟩
    | taskYield =>
      dsimp only
      rw [Prog.get_bind_run, if_neg hnoTask]
      exact ⟨_, SyscallError.asStatus_ne_ok (.cap .invalidHandle), rfl⟩
    | taskExit =>
      dsimp only
      rw [Prog.get_bind_run, if_neg hnoTask]
      exact ⟨_, SyscallError.asStatus_ne_ok (.cap .invalidHandle), rfl⟩

/-! ## The claim of the trap handler -/

namespace System

omit [Build] [Mmu AS] in
/-- A binding that is not a running task's is the fail-closed one. -/
theorem failClosed_of_binding {s : System AS} (hnone : s.binding.hasCurrentTask = false)
    (htable : s.kernel.ipc.tables s.failclosedTable = CapabilityTable.new) :
    (context s.binding s).FailClosed := by
  unfold binding at hnone ⊢
  dsimp only at hnone ⊢
  split at hnone
  · cases hnone
  · exact ⟨htable, rfl, rfl⟩

omit [Build] [Mmu AS] in
theorem endDispatch_context (b : Binding AS) (s : System AS) :
    endDispatch b (context b s) s = s := by
  unfold endDispatch context
  dsimp only
  rw [IpcSystem.endCall_call]

end System

/-- For every register frame: in a reachable context dispatch does not panic and a failure
it reports has changed nothing; in the fail-closed context every frame is a failure that
changes nothing; and without a running task, so is every trap. -/
theorem dispatch_failsClosed (args : SyscallArgs) :
    (∀ ctx : SyscallContext AS, ctx.Reachable → Translates ctx.taskAs ctx.memory →
      ∃ effect ctx', (dispatch args).run ctx = .ok effect ctx' ∧
        ∀ ret, effect = .resume ret → ret.status ≠ okStatus → Untouched ctx ctx') ∧
    (∀ ctx : SyscallContext AS, ctx.FailClosed →
      ∃ ret, ret.status ≠ okStatus ∧ (dispatch args).run ctx = .ok (.resume ret) ctx) ∧
    ∀ s : System AS, s.binding.hasCurrentTask = false →
      s.kernel.ipc.tables s.failclosedTable = CapabilityTable.new →
      ∃ ret, ret.status ≠ okStatus ∧ (System.syscallEntry args).run s = .ok (.resumed ret) s := by
  refine ⟨fun ctx hreach htranslates => ?_, fun ctx hclosed => dispatch_failClosed hclosed args,
    fun s hnone htable => ?_⟩
  · obtain ⟨τ, _, evs, s, who, hrun, hdrained, hcall⟩ := hreach
    have hsound := IpcSystem.capSound_of_run hrun hdrained
    have hwf : ctx.table.WellFormed := by
      rw [show ctx.table = s.tables who from congrArg IpcCall.table hcall]
      exact hsound.tables who
    have howned : CapOwned ctx.epArena ctx.queues := by
      rw [show ctx.epArena = s.epArena from congrArg IpcCall.epArena hcall,
        show ctx.queues = s.queues from congrArg IpcCall.queues hcall]
      exact hsound.capOwned
    exact dispatch_run hwf howned htranslates args
  · obtain ⟨ret, hstatus, hrun⟩ :=
      dispatch_failClosed (System.failClosed_of_binding hnone htable) args
    refine ⟨ret, hstatus, ?_⟩
    unfold System.syscallEntry
    rw [Prog.get_bind_run]
    refine (Prog.bind_ok (Prog.zoom_ok hrun)).trans ?_
    rw [System.endDispatch_context]
    rfl

end

/-- A write from the page of `onePageContext` dispatches, and a yield before the first
task is refused. -/
theorem dispatch_failsClosed_boot :
    (∃ effect ctx', (@dispatch Unit onePageMmu debugBuild ⟨5, #v[0, 0x1004, 2, 0, 0, 0]⟩).run
      onePageContext = .ok effect ctx') ∧
    ∃ ret, ret.status ≠ okStatus ∧
      (@System.syscallEntry Unit debugBuild onePageMmu ⟨3, #v[0, 0, 0, 0, 0, 0]⟩).run
        (System.board (Kernel.boot .boot)) =
        .ok (.resumed ret) (System.board (Kernel.boot .boot)) := by
  let _ : Build := debugBuild
  let _ : Mmu Unit := onePageMmu
  have hinsert := IpcSystem.performed_step (IpcSystem.boot : IpcSystem Unit)
    (.table () (.insertRoot ⟨.consoleWrite, .debugConsole⟩)) (.table (.handle ⟨0, 0⟩))
    (by with_unfolding_all rfl)
  have hreach : onePageContext.Reachable :=
    ⟨Unit, inferInstance, _, _, (), Run.single hinsert, by simp [IpcSystem.CapDrained],
      by with_unfolding_all rfl⟩
  obtain ⟨effect, ctx', hrun, _⟩ := (dispatch_failsClosed ⟨5, #v[0, 0x1004, 2, 0, 0, 0]⟩).1
    onePageContext hreach (onePage_translates _)
  exact ⟨⟨effect, ctx', hrun⟩, (dispatch_failsClosed ⟨3, #v[0, 0, 0, 0, 0, 0]⟩).2.2
    (System.board (Kernel.boot .boot)) rfl rfl⟩

end Tyrne
