import Tyrne.Bsp.Syscall
import Tyrne.Sched.Placement
import Tyrne.Sched.Waiters

/-!
# Runs of the system

Bridge calls of kernel tasks and syscalls of user tasks, in any order. A syscall does to
the kernel what its IPC call does, without waking or blocking a task, or what a yield or
an exit does. So it keeps the invariant of the scheduled kernel.
-/

namespace Tyrne

open Scheduler IpcSystem IpcQueues

namespace Kernel

variable [Build] {k k' : Kernel} {q q' ex ex' : List TaskHandle} {table : TablePtr}
  {args : SyscallArgs} {reply : SyscallReply} {e : EndpointHandle}

omit [Build] in
/-- The reply of a yield on behalf of a syscall. -/
def yieldReply : Exit Unit → SyscallReply
  | .returned _ => .yielded
  | .switched => .switched

/-- What a syscall with the table at `table` can do to the kernel, with the ready queue
and the exited tasks it leaves. -/
inductive Serves (k : Kernel) (q ex : List TaskHandle) (table : TablePtr) (args : SyscallArgs) :
    SyscallReply → Kernel → List TaskHandle → List TaskHandle → Prop
  | quiet {ret : SyscallReturn} : Serves k q ex table args (.resumed ret) k q ex
  | refused {err : IpcError} {queues : IpcQueues} :
      Refused k.ipc.epArena k.ipc.queues queues →
      Serves k q ex table args (.resumed (.error (.ipc err))) (k.withQueues queues) q ex
  | sent {outcome : SendOutcome} {call : IpcCall} :
      SyscallNumber.decode args.number = some .send →
      SendEnd (k.ipc.call table) (decodeRequiredCapHandle (x0 args.args))
        (decodeSendMessage args.args) (decodeCapHandle (x5 args.args)) (.ok outcome call) →
      Serves k q ex table args
        (.resumed (SyscallReturn.ok.withPayload 0 (encodeSendOutcome outcome)))
        (k.withCall table call) q ex
  | received {outcome : RecvOutcome} {call : IpcCall} :
      SyscallNumber.decode args.number = some .recv →
      RecvEnd (k.ipc.call table) (decodeRequiredCapHandle (x0 args.args)) (.ok outcome call) →
      Serves k q ex table args (.resumed (encodeRecvOutcome outcome)) (k.withCall table call) q ex
  | yielded {c : TaskHandle} {exit : Exit Unit} {k' : Kernel} {q' : List TaskHandle} :
      k.sched.current = some c → Yields k q c .taskYield exit k' q' →
      Serves k q ex table args (yieldReply exit) k' q' ex
  | exited {k' : Kernel} {q' ex' : List TaskHandle} :
      Effect k q ex .taskExit (.ok .switched) k' q' ex' →
      Serves k q ex table args .switched k' q' ex'

/-- A syscall that returns to its caller changes the scheduler in nothing. -/
theorem Serves.sched_eq {ret : SyscallReturn}
    (hserves : Serves k q ex table args (.resumed ret) k' q' ex') : k'.sched = k.sched := by
  generalize hreply : SyscallReply.resumed ret = reply at hserves
  cases hserves with
  | quiet => rfl
  | refused => rfl
  | sent => rfl
  | received => rfl
  | @yielded _ exit => cases exit <;> cases hreply
  | exited => cases hreply

theorem Serves.inv (hinv : k.Inv q ex) (hserves : Serves k q ex table args reply k' q' ex') :
    k'.Inv q' ex' := by
  cases hserves with
  | quiet => exact hinv
  | refused hq => exact ⟨hinv.part, sound_withQueues hinv.sound hq, hinv.current_none⟩
  | sent _ hend => exact ⟨hinv.part, sound_sent hinv.sound hend, hinv.current_none⟩
  | received _ hend => exact ⟨hinv.part, sound_received hinv.sound hend, hinv.current_none⟩
  | yielded hc hyields =>
    have hpast : k.core.running ≠ .boot := by
      intro hboot
      rw [hinv.current_none.mp hboot] at hc
      cases hc
    obtain ⟨hp, hipc, hrunning, hcurrent⟩ := hyields.inv hinv.part hc hpast
    exact ⟨hp, hipc ▸ hinv.sound, iff_of_past hrunning hcurrent⟩
  | exited heffect => exact heffect.inv hinv

/-- A syscall keeps who waits on an endpoint, unless it delivers a message there. -/
theorem Serves.waiters (hserves : Serves k q ex table args reply k' q' ex') (hw : k.Waiters e)
    (hlost : ∀ {call}, SyscallNumber.decode args.number = some .send →
      reply = .resumed (SyscallReturn.ok.withPayload 0 (encodeSendOutcome .delivered)) →
      SendEnd (k.ipc.call table) (decodeRequiredCapHandle (x0 args.args))
        (decodeSendMessage args.args) (decodeCapHandle (x5 args.args)) (.ok .delivered call) →
      Targets (k.ipc.tables table) (decodeRequiredCapHandle (x0 args.args)) .send e →
      ∀ i, ¬ k.BlockedOn i e) : k'.Waiters e := by
  cases hserves with
  | quiet => exact hw
  | refused hq => exact hw.settled hq
  | @sent outcome _ hnumber hend =>
    cases outcome with
    | enqueued => exact hw.enqueued hend
    | delivered =>
      have hnobody := hlost hnumber rfl hend
      cases hend with
      | @delivered ep _ _ htarget hlive _ _ _ =>
        refine Waiters.frame hw (fun i hi => hi) rfl fun i hi => ?_
        by_cases heq : e = ep
        · subst heq
          exact absurd hi (hnobody htarget i)
        · exact (effective_put_other hlive (hw.live i hi) heq).trans (hw.waiting i hi)
  | @received outcome _ _ hend =>
    cases outcome with
    | received => exact hw.received hend
    | pending => exact hw.pending hend
  | yielded _ hyields =>
    obtain ⟨hstates, -, -, hipc⟩ := hyields.frame
    exact hw.same hstates hipc
  | exited heffect => exact heffect.waiters hw

end Kernel

namespace System

variable {AS : Type} [Build] [Mmu AS] {s s' : System AS} {q q' ex ex' : List TaskHandle}
  {args : SyscallArgs} {reply : SyscallReply}

omit [Build] [Mmu AS] in
/-- With a complete binding a task is current. -/
theorem current_of_binding (hcurrent : s.binding.hasCurrentTask = true) :
    ∃ c, s.kernel.sched.current = some c := by
  cases hc : s.kernel.sched.current with
  | some c => exact ⟨c, rfl⟩
  | none =>
    have htable : s.kernel.sched.currentUserTable = none := by
      unfold currentUserTable ofCurrent
      rw [hc]
      rfl
    unfold binding at hcurrent
    rw [htable] at hcurrent
    cases hcurrent

omit [Build] [Mmu AS] in
/-- The kernel after the dispatch. -/
theorem endDispatch_kernel (b : Binding AS) (ctx : SyscallContext AS) (s : System AS) :
    (s.endDispatch b ctx).kernel = s.kernel.withCall b.callerTable ctx.toIpcCall := rfl

omit [Build] [Mmu AS] in
theorem onKernel_ok {α : Type} {m : Kernel.KernelM α} {a : α} {k' : Kernel}
    (hm : m.run s.kernel = .ok a k') :
    (onKernel m : SystemM AS α).run s = .ok a { s with kernel := k' } := Prog.zoom_ok hm

omit [Mmu AS] in
/-- A yield on behalf of the running task. -/
theorem reschedule_run (hinv : s.kernel.Inv q ex) {c : TaskHandle}
    (hc : s.kernel.sched.current = some c) (args : SyscallArgs) (table : TablePtr) :
    ∃ reply s' q' ex', (reschedule : SystemM AS _).run s = .ok reply s' ∧
      Kernel.Serves s.kernel q ex table args reply s'.kernel q' ex' := by
  obtain ⟨exit, k', q', hyields, hyield⟩ := Kernel.yieldNow_run hinv.part hc .taskYield
  refine ⟨Kernel.yieldReply exit, { s with kernel := k' }, q', ex, ?_, .yielded hc hyields⟩
  have hok : ((Except.ok exit : Except SchedError (Exit Unit)).isOk = true) := rfl
  unfold reschedule
  rw [Prog.bind_ok (Prog.attempt_ok (onKernel_ok hyield)), debugAssert_pos hok,
    Prog.pure_bind_run]
  cases exit <;> rfl

omit [Mmu AS] in
/-- An exit of the running task. -/
theorem terminate_run (hinv : s.kernel.Inv q ex) {c : TaskHandle}
    (hc : s.kernel.sched.current = some c) (hidle : s.kernel.sched.idle ≠ some c)
    {r : Except SchedError SyscallReply} (hrun : (terminate : SystemM AS _).run s = .returned r s')
    (args : SyscallArgs) (table : TablePtr) :
    ∃ reply q' ex', r = .ok reply ∧
      Kernel.Serves s.kernel q ex table args reply s'.kernel q' ex' := by
  have hwrite : (terminate : SystemM AS _).run s =
      (onKernel Kernel.taskExitCurrent >>= fun _ => (pure .switched : SystemM AS SyscallReply)).run
        { s with console := s.console ++ exitMessage } := rfl
  rw [hwrite] at hrun
  rcases Kernel.taskExit_cases hinv hc hidle with ⟨p, hexit⟩ | ⟨k', q', ex', hexit, heffect⟩
  · have hpanic : (onKernel Kernel.taskExitCurrent : SystemM AS _).run
        { s with console := s.console ++ exitMessage } = .panic p := Prog.zoom_panic hexit
    rw [Prog.bind_panic hpanic] at hrun
    cases r <;> cases hrun
  · have hok := onKernel_ok (s := { s with console := s.console ++ exitMessage }) hexit
    rw [Prog.bind_ok hok] at hrun
    obtain ⟨rfl, rfl⟩ := Result.returned_inj (r := .ok _).mp hrun
    exact ⟨.switched, q', ex', rfl, .exited heffect⟩

/-- What a syscall that returned or switched has done. -/
theorem serves_of_entry (hinv : s.kernel.Inv q ex)
    (hidle : s.kernel.sched.current ≠ s.kernel.sched.idle) {r : Except SchedError SyscallReply}
    (hrun : (syscallEntry args).run s = .returned r s') :
    ∃ reply q' ex', r = .ok reply ∧
      Kernel.Serves s.kernel q ex s.binding.callerTable args reply s'.kernel q' ex' := by
  have hwf : (context s.binding s).table.WellFormed := hinv.sound.tables s.binding.callerTable
  unfold syscallEntry at hrun
  rw [Prog.get_bind_run] at hrun
  cases hd : (dispatch args).run (context s.binding s) with
  | panic p =>
    rw [Prog.bind_panic (Prog.zoom_panic hd)] at hrun
    cases r <;> cases hrun
  | err e _ => cases e
  | ok effect ctx =>
    replace hrun := (Prog.bind_ok (Prog.zoom_ok hd)).symm.trans hrun
    have hend := dispatch_end hwf hd
    have hkernel := endDispatch_kernel s.binding ctx s
    have hsame : ctx.toIpcCall = s.kernel.ipc.call s.binding.callerTable →
        (s.endDispatch s.binding ctx).kernel = s.kernel := by
      intro hcall
      rw [hkernel, hcall, Kernel.withCall, IpcSystem.endCall_call]
    generalize s.endDispatch s.binding ctx = s₁ at hrun hkernel hsame
    generalize ctx.toIpcCall = call at hend hkernel hsame
    cases hend with
    | quiet =>
      obtain ⟨rfl, rfl⟩ := Result.returned_inj (r := .ok _).mp hrun
      refine ⟨_, q, ex, rfl, ?_⟩
      rw [hsame rfl]
      exact .quiet
    | @refused _ queues hq =>
      obtain ⟨rfl, rfl⟩ := Result.returned_inj (r := .ok _).mp hrun
      refine ⟨_, q, ex, rfl, ?_⟩
      have hqueues : s.kernel.withCall s.binding.callerTable
          { s.kernel.ipc.call s.binding.callerTable with queues } = s.kernel.withQueues queues := by
        rw [Kernel.withCall, Kernel.endCall_queues]
        rfl
      rw [hkernel]
      exact hqueues ▸ .refused hq
    | sent hnumber hend =>
      obtain ⟨rfl, rfl⟩ := Result.returned_inj (r := .ok _).mp hrun
      refine ⟨_, q, ex, rfl, ?_⟩
      rw [hkernel]
      exact .sent hnumber hend
    | received hnumber hend =>
      obtain ⟨rfl, rfl⟩ := Result.returned_inj (r := .ok _).mp hrun
      refine ⟨_, q, ex, rfl, ?_⟩
      rw [hkernel]
      exact .received hnumber hend
    | yields hcurrent =>
      obtain ⟨c, hc⟩ := current_of_binding hcurrent
      have hk := hsame rfl
      obtain ⟨reply, s₂, q', ex', hyield, hserves⟩ :=
        reschedule_run (s := s₁) (hk ▸ hinv) (hk ▸ hc) args s.binding.callerTable
      obtain ⟨rfl, rfl⟩ := Result.returned_inj (r := .ok _).mp (hyield.symm.trans hrun)
      exact ⟨reply, q', ex', rfl, hk ▸ hserves⟩
    | exits hcurrent =>
      obtain ⟨c, hc⟩ := current_of_binding hcurrent
      have hk := hsame rfl
      have hne : s.kernel.sched.idle ≠ some c := fun hcon => hidle (hc.trans hcon.symm)
      obtain ⟨reply, q', ex', rfl, hserves⟩ :=
        terminate_run (s := s₁) (hk ▸ hinv) (hk ▸ hc) (hk ▸ hne) hrun args s.binding.callerTable
      exact ⟨reply, q', ex', rfl, hk ▸ hserves⟩

end System

/-! ## Steps of the system -/

variable {AS : Type}

/-- What a caller has to respect; the idle task makes no syscall. -/
def SystemOp.Disciplined (op : SystemOp AS) (s : System AS) : Prop :=
  match op with
  | .kernel op => op.Disciplined s.kernel
  | .syscall _ => s.kernel.sched.current ≠ s.kernel.sched.idle
  | .store .. => True

/-- An operation that could be invoked and keeps the calling contract has returned or
switched. -/
structure SystemStep [Build] [Mmu AS] (s : System AS) (ev : SystemEvent AS) (s' : System AS) :
    Prop where
  before : ev.before = s
  after : ev.after = s'
  enabled : ev.op.Enabled s.kernel.core.running
  disciplined : ev.op.Disciplined s
  exec : (System.exec ev.op).run s = .returned ev.reply s'

namespace System

open Kernel

variable [Build] {s s' : System AS} {q q' ex ex' : List TaskHandle} {op : SystemOp AS}
  {reply : Except SchedError SystemReply} {k' : Kernel} {e : EndpointHandle}

/-- What an operation can do to the kernel. -/
inductive Effect (s : System AS) (q ex : List TaskHandle) :
    SystemOp AS → Except SchedError SystemReply → Kernel → List TaskHandle → List TaskHandle → Prop
  | kernel {op : KernelOp} {reply : Except SchedError KernelReply} {k' : Kernel}
      {q' ex' : List TaskHandle} : Kernel.Effect s.kernel q ex op reply k' q' ex' →
      Effect s q ex (.kernel op) (reply.map .kernel) k' q' ex'
  | syscall {args : SyscallArgs} {reply : SyscallReply} {k' : Kernel} {q' ex' : List TaskHandle} :
      Serves s.kernel q ex s.binding.callerTable args reply k' q' ex' →
      Effect s q ex (.syscall args) (.ok (.syscall reply)) k' q' ex'
  | store {memory : Memory} {asArena : AddressSpaceArena AS} :
      Effect s q ex (.store memory asArena) (.ok .stored) s.kernel q ex

theorem Effect.inv (hinv : s.kernel.Inv q ex) (heffect : Effect s q ex op reply k' q' ex') :
    k'.Inv q' ex' := by
  cases heffect with
  | kernel heffect => exact heffect.inv hinv
  | syscall hserves => exact hserves.inv hinv
  | store => exact hinv

variable [Mmu AS]

/-- A call of kernel code in the system. -/
theorem exec_kernel {op : KernelOp} {r : Except SchedError KernelReply}
    (hrun : (Kernel.exec op).run s.kernel = .returned r k') :
    (System.exec (.kernel op)).run s = .returned (r.map .kernel) { s with kernel := k' } := by
  cases r with
  | ok r => exact Prog.bind_ok (onKernel_ok hrun)
  | error err => exact Prog.bind_err (Prog.zoom_err hrun)

/-- A step has one of the effects. -/
theorem effect_of_step {ev : SystemEvent AS} (hinv : s.kernel.Inv q ex)
    (hstep : SystemStep s ev s') : ∃ q' ex', Effect s q ex ev.op ev.reply s'.kernel q' ex' := by
  obtain ⟨before, op, reply, after⟩ := ev
  obtain ⟨rfl, rfl, henabled, hdisc, hexec⟩ := hstep
  dsimp only at henabled hdisc hexec ⊢
  cases op with
  | kernel op =>
    obtain ⟨r, k', q', ex', hrun, heffect⟩ := ends_of_exec hinv henabled hdisc
    obtain ⟨rfl, rfl⟩ := Result.returned_inj.mp (hexec.symm.trans (exec_kernel hrun))
    exact ⟨q', ex', .kernel heffect⟩
  | syscall args =>
    cases hrun : (syscallEntry args).run before with
    | panic p =>
      rw [System.exec, Prog.bind_panic hrun] at hexec
      cases reply <;> cases hexec
    | err err s' =>
      obtain ⟨r, q', ex', hok, hserves⟩ := serves_of_entry hinv hdisc (r := .error err) hrun
      cases hok
    | ok r s' =>
      obtain ⟨r', q', ex', hok, hserves⟩ := serves_of_entry hinv hdisc (r := .ok r) hrun
      cases hok
      have hsystem : (System.exec (.syscall args)).run before =
          .returned (.ok (.syscall r)) s' := Prog.bind_ok hrun
      obtain ⟨rfl, rfl⟩ := Result.returned_inj.mp (hexec.symm.trans hsystem)
      exact ⟨q', ex', .syscall hserves⟩
  | store memory asArena =>
    have hsystem : (System.exec (.store memory asArena)).run before =
        .returned (.ok .stored) { before with memory, asArena } := rfl
    obtain ⟨rfl, rfl⟩ := Result.returned_inj.mp (hexec.symm.trans hsystem)
    exact ⟨q, ex, .store⟩

/-- A run of the kernel alone is a run of the system. -/
theorem run_of_kernel (s : System AS) {k k' : Kernel} {evs : List KernelEvent}
    (hrun : Run KernelStep k evs k') :
    Run SystemStep { s with kernel := k }
      (evs.map fun ev => ⟨{ s with kernel := ev.before }, .kernel ev.op, ev.reply.map .kernel,
        { s with kernel := ev.after }⟩)
      { s with kernel := k' } := by
  induction hrun with
  | nil k => exact .nil _
  | @cons k k₁ k' ev evs hstep _ ih =>
    refine .cons ?_ ih
    obtain ⟨rfl, rfl, henabled, hdisc, hexec⟩ := hstep
    exact ⟨rfl, rfl, henabled, hdisc, exec_kernel (s := { s with kernel := ev.before }) hexec⟩

/-! ## Runs of given operations -/

/-- The event of an operation, unless it panics. -/
def event (s : System AS) (op : SystemOp AS) : Option (SystemEvent AS) :=
  match (System.exec op).run s with
  | .ok reply s' => some ⟨s, op, .ok reply, s'⟩
  | .err err s' => some ⟨s, op, .error err, s'⟩
  | .panic _ => none

theorem step_of_event {op : SystemOp AS} {ev : SystemEvent AS} (hev : s.event op = some ev)
    (henabled : op.Enabled s.kernel.core.running) (hdisc : op.Disciplined s) :
    ev.before = s ∧ ev.op = op ∧ SystemStep s ev ev.after := by
  unfold event at hev
  cases hr : (System.exec op).run s with
  | ok reply s' =>
    rw [hr] at hev
    cases hev
    exact ⟨rfl, rfl, rfl, rfl, henabled, hdisc, hr⟩
  | err err s' =>
    rw [hr] at hev
    cases hev
    exact ⟨rfl, rfl, rfl, rfl, henabled, hdisc, hr⟩
  | panic p =>
    rw [hr] at hev
    cases hev

/-- Address spaces without a mapping. -/
@[reducible] def noMmu : Mmu Unit := ⟨fun _ _ => Prog.fail .notMapped⟩

/-- A board with one address space; the fail-closed table is empty. -/
def board (kernel : Kernel) : System Unit where
  kernel := kernel
  asArena := Arena.new.allocated 0 ⟨()⟩
  bootstrapAs := ()
  failclosedTable := 0
  memory _ := 0
  console := []

end System

end Tyrne
