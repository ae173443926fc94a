import Tyrne.Sched.Runs

/-!
# Blocked tasks and waiting endpoints

A task that is blocked on an endpoint waits there alone, and the endpoint knows that a
receiver is waiting. Every operation of the scheduled kernel keeps this, whichever tables
and handles its callers use.
-/

namespace Tyrne

open Scheduler IpcSystem IpcQueues

variable {k k' : Kernel} {q q' ex ex' : List TaskHandle} {i j : Index} {h c n : TaskHandle}
  {ep e : EndpointHandle} {st : EndpointState} {table : TablePtr} {epCap : CapHandle}

/-- The task of slot `i` is blocked on the endpoint. -/
def Kernel.BlockedOn (k : Kernel) (i : Index) (ep : EndpointHandle) : Prop :=
  k.sched.taskStates i = .blocked ep

namespace Kernel

/-- Who is blocked on the endpoint is so alone, and the endpoint waits for a receiver. -/
structure Waiters (k : Kernel) (ep : EndpointHandle) : Prop where
  live : ∀ i, k.BlockedOn i ep → Live k.ipc.epArena ep
  waiting : ∀ i, k.BlockedOn i ep → k.ipc.queues.effective ep = .recvWaiting
  alone : ∀ i j, k.BlockedOn i ep → k.BlockedOn j ep → i = j

/-! ## Frames -/

/-- A waiting endpoint stays as it is when another state is replaced. -/
theorem waiting_put {arena : EndpointArena} {queues : IpcQueues} (hlive : Live arena ep)
    (hother : queues.effective ep ≠ .recvWaiting) (hlive' : Live arena e)
    (hwaiting : queues.effective e = .recvWaiting) :
    (queues.put ep st).effective e = .recvWaiting := by
  have hne : e ≠ ep := by
    rintro rfl
    exact hother hwaiting
  rw [effective_put_other hlive hlive' hne]
  exact hwaiting

/-- What a yield leaves alone. -/
theorem Yields.frame {call : Suspended} {e : Exit Unit} (hyields : Yields k q c call e k' q') :
    k'.sched.taskStates = k.sched.taskStates ∧ k'.sched.taskHandles = k.sched.taskHandles ∧
      k'.sched.idle = k.sched.idle ∧ k'.ipc = k.ipc := by
  cases hyields <;> exact ⟨rfl, rfl, rfl, rfl⟩

/-- No task is blocked after an operation that was not before, and an endpoint somebody
still waits on is as before. -/
theorem Waiters.frame (hw : k.Waiters e) (hblocked : ∀ i, k'.BlockedOn i e → k.BlockedOn i e)
    (harena : k'.ipc.epArena = k.ipc.epArena)
    (hstate : ∀ i, k'.BlockedOn i e → k'.ipc.queues.effective e = .recvWaiting) :
    k'.Waiters e where
  live i hi := by
    rw [harena]
    exact hw.live i (hblocked i hi)
  waiting := hstate
  alone i j hi hj := hw.alone i j (hblocked i hi) (hblocked j hj)

/-- The same tasks are blocked, and the IPC state is the same. -/
theorem Waiters.same (hw : k.Waiters e) (hstates : k'.sched.taskStates = k.sched.taskStates)
    (hipc : k'.ipc = k.ipc) : k'.Waiters e := by
  have hblocked : ∀ i, k'.BlockedOn i e → k.BlockedOn i e := by
    intro i hi
    unfold BlockedOn at hi
    rwa [hstates] at hi
  apply hw.frame hblocked (by rw [hipc])
  intro i hi
  rw [hipc]
  exact hw.waiting i (hblocked i hi)

/-- A call that replaces the state of an endpoint nobody waits on. -/
theorem Waiters.call (hw : k.Waiters e) (hlive : Live k.ipc.epArena ep)
    (hother : k.ipc.queues.effective ep ≠ .recvWaiting) (t' : CapabilityTable) :
    (k.withCall table ⟨k.ipc.epArena, k.ipc.queues.put ep st, t'⟩).Waiters e := by
  refine Waiters.frame hw (fun i hi => hi) rfl fun i hi => ?_
  exact waiting_put hlive hother (hw.live i hi) (hw.waiting i hi)

theorem Waiters.settled (hw : k.Waiters e) {queues : IpcQueues}
    (hq : Refused k.ipc.epArena k.ipc.queues queues) : (k.withQueues queues).Waiters e := by
  refine Waiters.frame hw (fun i hi => hi) rfl fun i hi => ?_
  exact (hq.agree e (hw.live i hi)).trans (hw.waiting i hi)

/-- A registration of a vacant slot blocks nobody. -/
theorem Waiters.registers (hw : k.Waiters e) {idle : Option TaskHandle}
    {space : AddressSpaceHandle} {context : TaskContext} {s' : Scheduler}
    {r : SchedQueue taskArenaCapacity} (hreg : Registers k.sched h space r idle context s') :
    Waiters { k with sched := s' } e := by
  have hblocked : ∀ i, BlockedOn { k with sched := s' } i e → k.BlockedOn i e := by
    intro i hi
    unfold BlockedOn at hi
    dsimp only at hi
    rw [hreg.taskStates] at hi
    by_cases heq : i = h.slot.index
    · rw [heq, Function.update_self] at hi
      cases hi
    · rwa [Function.update_of_ne heq] at hi
  exact hw.frame hblocked rfl fun i hi => hw.waiting i (hblocked i hi)

/-- Before the first dispatch nobody waits. -/
theorem boot_waiters (ipc : IpcSystem TablePtr) : (boot ipc).Waiters e :=
  ⟨(fun _ hi => nomatch hi), (fun _ hi => nomatch hi), (fun _ _ hi => nomatch hi)⟩

/-! ## Sends and receives -/

variable [Build] {msg : Message} {transfer : Option CapHandle} {call : IpcCall}

theorem Waiters.enqueued (hw : k.Waiters e)
    (hend : SendEnd (k.ipc.call table) epCap msg transfer (.ok .enqueued call)) :
    (k.withCall table call).Waiters e := by
  cases hend with
  | enqueued _ hlive hstate _ _ => exact hw.call hlive (ne_of_eq_of_ne hstate (by simp)) _

omit [Build] in
theorem Waiters.received (hw : k.Waiters e) {cap : Option CapHandle}
    (hend : RecvEnd (k.ipc.call table) epCap (.ok (.received msg cap) call)) :
    (k.withCall table call).Waiters e := by
  cases hend with
  | received _ hlive hheld _ =>
    refine hw.call hlive (fun hwaiting => ?_) _
    have hnone := congrArg EndpointState.held hwaiting
    cases hheld.symm.trans hnone

omit [Build] in
/-- A receive that registers, without a task that blocks. -/
theorem Waiters.pending (hw : k.Waiters e)
    (hend : RecvEnd (k.ipc.call table) epCap (.ok .pending call)) :
    (k.withCall table call).Waiters e := by
  cases hend with
  | registered _ hlive hstate => exact hw.call hlive (ne_of_eq_of_ne hstate (by simp)) _

omit [Build] in
/-- Who is blocked after the wake-up was blocked before, on another endpoint. -/
theorem Unblocks.blocked_before (hw : k.Waiters e) {s' : Scheduler}
    (hunblocks : Unblocks k.sched q ep s' q') (hi : s'.taskStates i = .blocked e) :
    k.BlockedOn i e ∧ e ≠ ep := by
  cases hunblocks with
  | nobody hnobody =>
    refine ⟨hi, ?_⟩
    rintro rfl
    exact hnobody i hi
  | @woken w _ _ hblocked _ _ =>
    dsimp only at hi
    by_cases hiw : i = w
    · rw [hiw, Function.update_self] at hi
      cases hi
    · rw [Function.update_of_ne hiw] at hi
      refine ⟨hi, ?_⟩
      rintro rfl
      exact hiw (hw.alone i w hi hblocked)

/-- A delivery wakes the only task that was blocked on the endpoint. -/
theorem Waiters.delivered (hw : k.Waiters e) {s' : Scheduler}
    (htarget : Targets (k.ipc.tables table) epCap .send ep)
    (hend : SendEnd (k.ipc.call table) epCap msg transfer (.ok .delivered call))
    (hunblocks : Unblocks k.sched q ep s' q') :
    Waiters { k.withCall table call with sched := s' } e := by
  cases hend with
  | delivered htarget' hlive _ _ _ =>
    cases htarget.unique htarget'
    have hbefore := fun i hi => hunblocks.blocked_before hw (i := i) hi
    refine Waiters.frame hw (fun i hi => (hbefore i hi).1) rfl fun i hi => ?_
    obtain ⟨hblocked, hne⟩ := hbefore i hi
    have hlive' := hw.live i hblocked
    exact (effective_put_other hlive hlive' hne).trans (hw.waiting i hblocked)

omit [Build] in
/-- A task that blocks does so on an endpoint that was idle, so alone. -/
theorem Waiters.blocked (hw : k.Waiters e) {r : SchedQueue taskArenaCapacity} {call' : Suspended}
    (htarget : Targets (k.ipc.tables table) epCap .recv ep)
    (hend : RecvEnd (k.ipc.call table) epCap (.ok .pending call)) :
    ((k.withCall table call).blockedOn r c n ep call').Waiters e := by
  cases hend with
  | registered htarget' hlive hstate =>
    cases htarget.unique htarget'
    have hcases : ∀ i, (Function.update k.sched.taskStates c.slot.index (.blocked ep)) i =
        .blocked e → i = c.slot.index ∧ e = ep ∨ k.BlockedOn i e ∧ e ≠ ep := by
      intro i hi
      by_cases hic : i = c.slot.index
      · rw [hic, Function.update_self] at hi
        cases hi
        exact Or.inl ⟨hic, rfl⟩
      · rw [Function.update_of_ne hic] at hi
        refine Or.inr ⟨hi, ?_⟩
        rintro rfl
        have hwaiting := hw.waiting i hi
        exact absurd (hstate.symm.trans hwaiting) (by simp)
    refine ⟨fun i hi => ?_, fun i hi => ?_, fun i j hi hj => ?_⟩
    · rcases hcases i hi with ⟨-, rfl⟩ | ⟨hblocked, -⟩
      · exact hlive
      · exact hw.live i hblocked
    · rcases hcases i hi with ⟨-, rfl⟩ | ⟨hblocked, hne⟩
      · exact effective_put
      · have hlive' := hw.live i hblocked
        exact (effective_put_other hlive hlive' hne).trans (hw.waiting i hblocked)
    · rcases hcases i hi with ⟨hic, rfl⟩ | ⟨hi, hne⟩ <;>
        rcases hcases j hj with ⟨hjc, heq⟩ | ⟨hj, hne'⟩
      · rw [hic, hjc]
      · exact absurd rfl hne'
      · exact absurd heq hne
      · exact hw.alone i j hi hj

/-! ## Every operation -/

variable {op : KernelOp} {reply : Except SchedError KernelReply}

theorem Effect.waiters (heffect : Effect k q ex op reply k' q' ex') (hw : k.Waiters e) :
    k'.Waiters e := by
  cases heffect with
  | joined _ _ hreg _ _ => exact hw.registers hreg
  | idled _ _ _ hreg _ => exact hw.registers hreg
  | started => exact hw.same rfl rfl
  | exited => exact hw.same rfl rfl
  | continued => exact hw.same rfl rfl
  | collected _ hend => exact Waiters.received (k := k.resumed) (hw.same rfl rfl) hend
  | missed _ hend => exact Waiters.pending (k := k.resumed) (hw.same rfl rfl) hend
  | collectRefused _ _ hq => exact Waiters.settled (k := k.resumed) (hw.same rfl rfl) hq
  | yielded _ hyields =>
    obtain ⟨hstates, -, -, hipc⟩ := hyields.frame
    exact hw.same hstates hipc
  | refused _ hq => exact hw.settled hq
  | enqueued hend => exact hw.enqueued hend
  | delivered _ htarget hend hunblocks hyields =>
    obtain ⟨hstates, -, -, hipc⟩ := hyields.frame
    exact (hw.delivered htarget hend hunblocks).same hstates hipc
  | received hend => exact hw.received hend
  | blocked _ _ htarget hend => exact hw.blocked htarget hend

end Kernel

end Tyrne
