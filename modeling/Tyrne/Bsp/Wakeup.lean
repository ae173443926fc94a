import Tyrne.Bsp.Runs
import Tyrne.Sched.Delivery

/-!
# Wake-ups of blocked receivers

A send of a kernel task wakes the receiver it delivers to; a `send` syscall delivers
without a wake-up, so a task that is blocked on the endpoint stays blocked. On an endpoint
where this has not happened, a delivery leaves no task blocked.
-/

namespace Tyrne

open Scheduler IpcSystem IpcQueues

namespace Kernel

/-- No task is blocked on the endpoint any more: who was is in the ready queue or current. -/
structure Woken (k k' : Kernel) (ep : EndpointHandle) : Prop where
  nobody : ∀ i, ¬ k'.BlockedOn i ep
  ready : ∀ i, k.BlockedOn i ep → ∃ h q, k'.sched.taskHandles i = some h ∧
    k'.sched.taskStates i = .ready ∧ k'.sched.ready.Represents q ∧
    (h ∈ q ∨ k'.sched.current = some h)

variable [Build] {k k' : Kernel} {q q' ex ex' : List TaskHandle} {table : TablePtr}
  {epCap : CapHandle} {msg : Message} {transfer : Option CapHandle} {ep : EndpointHandle}

omit [Build] in
/-- A yield keeps a queued task in the queue, or dispatches it. -/
theorem Yields.mem_or_current {c h : TaskHandle} {call : Suspended} {e : Exit Unit}
    (hyields : Yields k q c call e k' q') (hh : h ∈ q) :
    h ∈ q' ∨ k'.sched.current = some h := by
  cases hyields with
  | stays hq _ =>
    subst hq
    cases hh
  | switches hsplit _ _ =>
    have hmem : h ∈ if k.sched.idle = some c then q else q ++ [c] := by
      split
      · exact hh
      · exact List.mem_append_left _ hh
    rw [hsplit] at hmem
    rcases List.mem_cons.mp hmem with rfl | hrest
    · exact Or.inr rfl
    · exact Or.inl hrest

/-- A send through the bridge that is delivered wakes who is blocked on the endpoint. -/
theorem Effect.woken {reply : KernelReply} (hinv : k.Inv q ex) (hw : k.Waiters ep)
    (heffect : Effect k q ex (.sendAndYield table epCap msg transfer) (.ok reply) k' q' ex')
    (htarget : Targets (k.ipc.tables table) epCap .send ep)
    (hreply : reply = .sent .delivered ∨ reply = .switched) : Woken k k' ep := by
  have hready := (heffect.inv hinv).part.ready
  cases heffect with
  | joined => simp at hreply
  | idled => simp at hreply
  | enqueued => simp at hreply
  | delivered _ htarget' _ hunblocks hyields =>
    cases htarget.unique htarget'
    obtain ⟨hstates, hhandles, -, -⟩ := hyields.frame
    constructor
    · intro i hi
      unfold BlockedOn at hi
      rw [hstates] at hi
      exact (hunblocks.blocked_before hw hi).2 rfl
    · intro i hi
      cases hunblocks with
      | nobody hnobody => exact absurd hi (hnobody i)
      | @woken w h _ hblocked hh _ =>
        cases hw.alone i w hi hblocked
        refine ⟨h, q', ?_, ?_, hready, ?_⟩
        · rw [hhandles]
          exact hh
        · rw [hstates]
          exact Function.update_self ..
        · exact hyields.mem_or_current (List.mem_append_right _ (List.mem_singleton_self h))

end Kernel

/-! ## Deliveries in the system -/

namespace SystemEvent

variable {AS : Type} [Build]

omit [Build] in
def IsSyscall (ev : SystemEvent AS) : Prop := ∃ args, ev.op = .syscall args

/-- The event is a send on the endpoint that reports `Delivered`. A send through the
bridge that has switched away does so when it is resumed. -/
def DeliversOn (ev : SystemEvent AS) (ep : EndpointHandle) : Prop :=
  match ev.op, ev.reply with
  | .kernel (.sendAndYield table epCap _ _), .ok (.kernel reply) =>
    Targets (ev.before.kernel.ipc.tables table) epCap .send ep ∧
      (reply = .sent .delivered ∨ reply = .switched)
  | .syscall args, .ok (.syscall (.resumed ret)) =>
    Targets (ev.before.kernel.ipc.tables ev.before.binding.callerTable)
      (decodeRequiredCapHandle (x0 args.args)) .send ep ∧
    SyscallNumber.decode args.number = some .send ∧ ret.status = okStatus ∧
      ret.x1 = sendOutcomeDelivered
  | _, _ => False

/-- A `send` syscall that is delivered on the endpoint while a task is blocked on it. -/
def LosesWakeup (ev : SystemEvent AS) (ep : EndpointHandle) : Prop :=
  ev.IsSyscall ∧ ev.DeliversOn ep ∧ ∃ i, ev.before.kernel.BlockedOn i ep

end SystemEvent

namespace System

open Kernel

variable {AS : Type} [Build] {s s' : System AS} {q q' ex ex' : List TaskHandle}
  {op : SystemOp AS} {reply : Except SchedError SystemReply} {after : System AS}
  {ep : EndpointHandle}

/-- An operation that loses no wake-up on the endpoint keeps who waits there. -/
theorem Effect.waiters (heffect : Effect s q ex op reply after.kernel q' ex')
    (hw : s.kernel.Waiters ep)
    (hkeeps : ¬ (⟨s, op, reply, after⟩ : SystemEvent AS).LosesWakeup ep) :
    after.kernel.Waiters ep := by
  generalize hk : after.kernel = k' at heffect
  cases heffect with
  | kernel heffect => exact heffect.waiters hw
  | store => exact hw
  | @syscall args reply _ _ _ hserves =>
    refine hserves.waiters hw fun hnumber hreply _ htarget i hi => ?_
    subst hreply
    apply hkeeps
    refine ⟨⟨args, rfl⟩, ⟨htarget, hnumber, rfl, ?_⟩, i, hi⟩
    exact Vector.getElem_set_self ..

/-- A syscall that reports a delivery changes the scheduler in nothing. -/
theorem Effect.sched_eq (heffect : Effect s q ex op reply after.kernel q' ex')
    (hsyscall : (⟨s, op, reply, after⟩ : SystemEvent AS).IsSyscall)
    (hdelivers : (⟨s, op, reply, after⟩ : SystemEvent AS).DeliversOn ep) :
    after.kernel.sched = s.kernel.sched := by
  generalize after.kernel = k' at heffect
  obtain ⟨args, hop⟩ := hsyscall
  dsimp only at hop
  subst hop
  cases heffect with
  | @syscall _ reply _ _ _ hserves =>
    cases reply with
    | resumed ret => exact hserves.sched_eq
    | yielded => exact hdelivers.elim
    | switched => exact hdelivers.elim

/-- A delivery on an endpoint whose waiters are known leaves no task blocked there, unless
it is a syscall that loses the wake-up. -/
theorem Effect.woken (hinv : s.kernel.Inv q ex) (hw : s.kernel.Waiters ep)
    (heffect : Effect s q ex op reply after.kernel q' ex')
    (hdelivers : (⟨s, op, reply, after⟩ : SystemEvent AS).DeliversOn ep)
    (hkeeps : ¬ (⟨s, op, reply, after⟩ : SystemEvent AS).LosesWakeup ep) :
    Woken s.kernel after.kernel ep := by
  cases op with
  | store => exact hdelivers.elim
  | syscall args =>
    have hsyscall : (⟨s, .syscall args, reply, after⟩ : SystemEvent AS).IsSyscall := ⟨args, rfl⟩
    have hsched := heffect.sched_eq hsyscall hdelivers
    have hnobody : ∀ i, ¬ s.kernel.BlockedOn i ep :=
      fun i hi => hkeeps ⟨hsyscall, hdelivers, i, hi⟩
    constructor
    · intro i hi
      unfold BlockedOn at hi
      rw [hsched] at hi
      exact hnobody i hi
    · exact fun i hi => absurd hi (hnobody i)
  | kernel op =>
    generalize after.kernel = k' at heffect
    cases heffect with
    | @kernel _ reply _ _ _ heffect =>
      cases reply with
      | error err => cases op <;> exact hdelivers.elim
      | ok reply =>
        cases op with
        | sendAndYield table epCap msg transfer =>
          obtain ⟨htarget, hreply⟩ := hdelivers
          exact heffect.woken hinv hw htarget hreply
        | _ => exact hdelivers.elim

variable [Mmu AS]

/-- The invariant of the kernel over a run of the system, with the waiters of an endpoint
on which no wake-up has been lost. -/
theorem waiters_of_run {ipc : IpcSystem TablePtr} {evs : List (SystemEvent AS)}
    (hsound : ipc.Sound) (hboot : s.kernel = boot ipc) (hrun : Run SystemStep s evs s') :
    ∃ q ex, s'.kernel.Inv q ex ∧ ((∀ ev ∈ evs, ¬ ev.LosesWakeup ep) → s'.kernel.Waiters ep) := by
  refine hrun.history (I := fun evs s => ∃ q ex, s.kernel.Inv q ex ∧
    ((∀ ev ∈ evs, ¬ ev.LosesWakeup ep) → s.kernel.Waiters ep)) ?_ ?_
  · rw [hboot]
    exact ⟨[], [], boot_inv hsound, fun _ => boot_waiters ipc⟩
  · intro past s ev s' hpast hstep
    obtain ⟨q, ex, hinv, hw⟩ := hpast
    obtain ⟨q', ex', heffect⟩ := effect_of_step hinv hstep
    refine ⟨q', ex', heffect.inv hinv, fun hkeeps => ?_⟩
    obtain ⟨before, op, reply, after⟩ := ev
    obtain ⟨rfl, rfl, -, -, -⟩ := hstep
    have hlast := hkeeps _ (List.mem_append_right _ (List.mem_singleton_self _))
    exact heffect.waiters (hw fun e he => hkeeps e (List.mem_append_left _ he)) hlast

/-- In every run of kernel-task IPC and syscalls, a `send` syscall that reports a delivery
wakes nobody; and on an endpoint where no such syscall has met a blocked task, a send that
reports a delivery leaves no task blocked: who was is in the ready queue or current. -/
theorem wakeup_of_run {setup : List (IpcSystem.Event TablePtr)} {ipc : IpcSystem TablePtr}
    {past rest : List (SystemEvent AS)} {ev : SystemEvent AS}
    (hsetup : Run IpcSystem.Step IpcSystem.boot setup ipc) (hdrained : ∀ ev ∈ setup, Drained ev)
    (hboot : s.kernel = boot ipc) (hrun : Run SystemStep s (past ++ ev :: rest) s')
    (hdelivers : ev.DeliversOn ep) :
    (ev.IsSyscall → ev.after.kernel.sched = ev.before.kernel.sched) ∧
    ((∀ e ∈ past ++ [ev], ¬ e.LosesWakeup ep) → Woken ev.before.kernel ev.after.kernel ep) := by
  obtain ⟨s₁, hpast, hrest⟩ := hrun.split
  have hreached : ∃ q ex, s₁.kernel.Inv q ex ∧
      ((∀ e ∈ past, ¬ e.LosesWakeup ep) → s₁.kernel.Waiters ep) :=
    waiters_of_run (boot_sound.run hsetup hdrained) hboot hpast
  obtain ⟨q, ex, hinv, hw⟩ := hreached
  cases hrest with
  | cons hstep _ =>
    obtain ⟨q', ex', heffect⟩ := effect_of_step hinv hstep
    obtain ⟨before, op, reply, after⟩ := ev
    obtain ⟨rfl, rfl, -, -, -⟩ := hstep
    refine ⟨fun hsyscall => heffect.sched_eq hsyscall hdelivers, fun hkeeps => ?_⟩
    have hlast := hkeeps _ (List.mem_append_right _ (List.mem_singleton_self _))
    have hwaiters := hw fun e he => hkeeps e (List.mem_append_left _ he)
    exact heffect.woken hinv hwaiters hdelivers hlast

/-! ## A kernel task that waits for a user task -/

section Lost

/-- A kernel task blocks on the endpoint; the user task, which holds `SEND`, is dispatched. -/
def blockedOps : List KernelOp :=
  [.addTask ⟨⟨0, 0⟩⟩ ⟨⟨0, 0⟩⟩ 4096 8192, .addUserTask ⟨⟨1, 0⟩⟩ ⟨⟨0, 0⟩⟩ 4096 8192 16384 2, .start,
    .resume, .recvAndYield 1 ⟨0, 0⟩, .resume]

/-- `send` on the first handle, without a transfer. -/
def sendArgs : SyscallArgs := ⟨1, #v[0, 1, 2, 3, 4, nullCapHandle]⟩

/-- A kernel task takes the place of the user task and sends through the bridge. -/
def bridgedOps : List KernelOp :=
  [.addTask ⟨⟨0, 0⟩⟩ ⟨⟨0, 0⟩⟩ 4096 8192, .addTask ⟨⟨1, 0⟩⟩ ⟨⟨0, 0⟩⟩ 4096 16384, .start, .resume,
    .recvAndYield 1 ⟨0, 0⟩, .resume, .sendAndYield 2 ⟨0, 0⟩ ⟨1, 2, 3, 4⟩ none]

omit [Build] [Mmu AS] in
/-- The bridge send delivers, and the receiver it has readied is no longer blocked. -/
theorem wakeup_of_run_bridged : ∃ (past : List (SystemEvent Unit)) (ev : SystemEvent Unit)
    (s : System Unit),
    @Run _ _ (@SystemStep Unit debugBuild noMmu) (board (boot twoReceivers)) (past ++ [ev]) s ∧
    @SystemEvent.DeliversOn _ debugBuild ev ⟨⟨0, 0⟩⟩ ∧
    ev.before.kernel.BlockedOn 0 ⟨⟨0, 0⟩⟩ ∧
    Woken ev.before.kernel ev.after.kernel ⟨⟨0, 0⟩⟩ := by
  let _ : Build := debugBuild
  let _ : Mmu Unit := noMmu
  obtain ⟨setup, hsetup, hdrained⟩ := twoReceivers_run
  have hne : trace (boot twoReceivers) bridgedOps ≠ [] := by
    intro hnil
    have hlength : (trace (boot twoReceivers) bridgedOps).length = 7 := by with_unfolding_all rfl
    rw [hnil] at hlength
    cases hlength
  have hrun := run_of_kernel (board (boot twoReceivers))
    (trace_run (boot twoReceivers) bridgedOps)
  rw [← List.dropLast_append_getLast hne, List.map_append] at hrun
  have hdelivers : SystemEvent.DeliversOn
      (⟨board ((trace (boot twoReceivers) bridgedOps).getLast hne).before,
        .kernel ((trace (boot twoReceivers) bridgedOps).getLast hne).op,
        ((trace (boot twoReceivers) bridgedOps).getLast hne).reply.map .kernel,
        board ((trace (boot twoReceivers) bridgedOps).getLast hne).after⟩ : SystemEvent Unit)
      ⟨⟨0, 0⟩⟩ := by
    with_unfolding_all exact ⟨⟨⟨.send, .endpoint ⟨⟨0, 0⟩⟩⟩, rfl, rfl, rfl⟩, Or.inr rfl⟩
  refine ⟨_, _, _, hrun, ?_, ?_, (wakeup_of_run hsetup hdrained rfl hrun ?_).2 ?_⟩
  · exact hdelivers
  · with_unfolding_all rfl
  · exact hdelivers
  · intro e he hlost
    obtain ⟨⟨args, hop⟩, -, -⟩ := hlost
    rcases List.mem_append.mp he with hpast | hlast
    · obtain ⟨kev, -, rfl⟩ := List.mem_map.mp hpast
      cases hop
    · rw [List.mem_singleton.mp hlast] at hop
      cases (show SystemOp.kernel _ = SystemOp.syscall args from hop)

omit [Build] [Mmu AS] in
/-- The send of the user task reports a delivery and leaves the receiver blocked. -/
theorem wakeup_lost : ∃ (setup : List (IpcSystem.Event TablePtr)) (past : List (SystemEvent Unit))
    (ev : SystemEvent Unit),
    @Run _ _ (@IpcSystem.Step TablePtr _ debugBuild) IpcSystem.boot setup twoReceivers ∧
    (∀ ev ∈ setup, Drained ev) ∧
    @Run _ _ (@SystemStep Unit debugBuild noMmu) (board (boot twoReceivers))
      (past ++ [ev]) ev.after ∧
    ev.IsSyscall ∧ @SystemEvent.DeliversOn _ debugBuild ev ⟨⟨0, 0⟩⟩ ∧
    ev.after.kernel.BlockedOn 0 ⟨⟨0, 0⟩⟩ := by
  let _ : Build := debugBuild
  let _ : Mmu Unit := noMmu
  obtain ⟨setup, hsetup, hdrained⟩ := twoReceivers_run
  have hrun := run_of_kernel (board (boot twoReceivers)) (trace_run (boot twoReceivers) blockedOps)
  have hreply : ((board (afterTrace (boot twoReceivers) blockedOps)).event (.syscall sendArgs)).map
      (fun ev => ev.reply) = some (.ok (.syscall (.resumed
        (SyscallReturn.ok.withPayload 0 sendOutcomeDelivered)))) := by with_unfolding_all rfl
  have hstate : ((board (afterTrace (boot twoReceivers) blockedOps)).event (.syscall sendArgs)).map
      (fun ev => ev.after.kernel.sched.taskStates 0) = some (.blocked ⟨⟨0, 0⟩⟩) := by
    with_unfolding_all rfl
  obtain ⟨ev, hev, hreply⟩ := Option.map_eq_some_iff.mp hreply
  rw [hev] at hstate
  have hdisc : (board (afterTrace (boot twoReceivers) blockedOps)).kernel.sched.current ≠
      (board (afterTrace (boot twoReceivers) blockedOps)).kernel.sched.idle := by
    decide +kernel
  obtain ⟨hbefore, hop, hstep⟩ := step_of_event hev (by with_unfolding_all rfl) hdisc
  refine ⟨setup, _, ev, hsetup, hdrained, hrun.snoc hstep, ⟨_, hop⟩, ?_,
    Option.some_injective _ hstate⟩
  obtain ⟨before, op, reply, after⟩ := ev
  subst hbefore hop hreply
  with_unfolding_all exact ⟨⟨⟨.send, .endpoint ⟨⟨0, 0⟩⟩⟩, rfl, rfl, rfl⟩, rfl, rfl, rfl⟩

end Lost

end System

end Tyrne
