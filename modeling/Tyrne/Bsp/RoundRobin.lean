import Tyrne.Bsp.Runs
import Tyrne.Library.Rotation

/-!
# Round-robin

The scheduler is a desk with a waiting line: the ready queue is the line, the current task
is served, and idle stands in. Every operation of the system is a step of the desk, so a
queued task is dispatched after the tasks that are before it in the queue and before all
that join it later, and idle only when nothing is queued.
-/

namespace Tyrne

open Rotation Scheduler IpcSystem IpcQueues

/-- The scheduler with the ready queue `q`, as a desk. -/
def Scheduler.desk (s : Scheduler) (q : List TaskHandle) : Desk TaskHandle :=
  ⟨q, s.current, s.idle⟩

/-- The task that `s'` has dispatched since `s`: the current one, if it is another. -/
def Scheduler.dispatchedSince (s s' : Scheduler) : Option TaskHandle :=
  if s'.current = s.current then none else s'.current

section Labels

variable {s s' : Scheduler} {q q' : List TaskHandle} {e : Option TaskHandle}

/-- The label of a step is the task it has dispatched. -/
theorem Scheduler.step_dispatchedSince (h : Step (s.desk q) e (s'.desk q')) :
    Step (s.desk q) (s.dispatchedSince s') (s'.desk q') := by
  obtain ⟨hsame, hother⟩ := h.served_iff
  have hlabel : s.dispatchedSince s' = e := by
    unfold dispatchedSince
    cases e with
    | none => exact if_pos (hsame rfl)
    | some n =>
      obtain ⟨hcurrent, hne⟩ := hother n rfl
      have hcurrent : s'.current = some n := hcurrent
      have hne : s.current ≠ some n := hne
      rw [hcurrent, if_neg hne.symm]
  rw [hlabel]
  exact h

/-- A step that dispatches nothing and queues nothing. -/
theorem Scheduler.step_quiet (hcurrent : s'.current = s.current) :
    Step (s.desk q) none (s'.desk q) := by
  have hjoins : Step (s.desk q) none ⟨q ++ [], s.current, s'.idle⟩ := .joins
  rw [List.append_nil, ← hcurrent] at hjoins
  exact hjoins

end Labels

namespace Kernel

variable {k k' : Kernel} {q q' ex ex' : List TaskHandle} {c n : TaskHandle}
  {rest : List TaskHandle} {call : Suspended}

/-- The dispatch of the picked task. -/
theorem step_of_picks {s s' : Scheduler} (hp : s.Partitioned q ex)
    (hpick : Picks s.idle q n rest) (hne : s.current ≠ some n) (hcurrent : s'.current = some n)
    (hidle : s'.idle = s.idle) : Step (s.desk q) (some n) (s'.desk rest) := by
  unfold Scheduler.desk
  rw [hcurrent, hidle]
  cases hpick with
  | front =>
    have hstand : s.idle ≠ some n := fun hcon => (hp.idle n hcon).2.1 List.mem_cons_self
    exact .calls (List.append_nil _) hne hstand
  | fallback hfall => exact .standsIn hfall hne

/-- A yield is a step of the desk. -/
theorem Yields.step {e : Exit Unit} (hyields : Yields k q c call e k' q')
    (hp : k.sched.Partitioned q ex) (hc : k.sched.current = some c) :
    ∃ label, Step (k.sched.desk q) label (k'.sched.desk q') := by
  obtain ⟨-, hcq, -⟩ := hp.current c hc
  cases hyields with
  | stays hq =>
    subst hq
    exact ⟨none, step_quiet rfl⟩
  | @switches n _ r hsplit hn hr =>
    have hne : k.sched.current ≠ some n := by
      rw [hc]
      rintro ⟨⟩
      exact hcq hn
    have hstand : k.sched.idle ≠ some n := fun hcon => (hp.idle n hcon).2.1 hn
    have hline : ∃ joined, q ++ joined = n :: q' := by
      by_cases hidle : k.sched.idle = some c
      · rw [if_pos hidle] at hsplit
        exact ⟨[], by rw [List.append_nil, hsplit]⟩
      · rw [if_neg hidle] at hsplit
        exact ⟨[c], hsplit⟩
    obtain ⟨joined, hline⟩ := hline
    exact ⟨some n, .calls hline hne hstand⟩

/-- Waking a receiver lets it join. -/
theorem Unblocks.joined {s s' : Scheduler} {ep : EndpointHandle}
    (hunblocks : Unblocks s q ep s' q') : ∃ joined, q' = q ++ joined := by
  cases hunblocks with
  | nobody => exact ⟨[], (List.append_nil q).symm⟩
  | @woken _ h => exact ⟨[h], rfl⟩

variable [Build] {op : KernelOp} {reply : Except SchedError KernelReply}

/-- Every operation of the kernel is a step of the desk. -/
theorem Effect.step (hinv : k.Inv q ex) (heffect : Effect k q ex op reply k' q' ex') :
    ∃ label, Step (k.sched.desk q) label (k'.sched.desk q') := by
  have hp := hinv.part
  cases heffect with
  | @joined _ h _ _ _ _ _ _ hreg =>
    refine ⟨none, ?_⟩
    unfold Scheduler.desk
    rw [hreg.current]
    exact .joins
  | idled _ _ _ hreg => exact ⟨none, step_quiet hreg.current⟩
  | started hc hpick =>
    have hne : ∀ n, k.sched.current ≠ some n := by
      intro n
      rw [hc]
      exact fun hcon => (nomatch hcon)
    exact ⟨_, step_of_picks hp hpick (hne _) rfl rfl⟩
  | @exited c n rest r hc hidle hpick =>
    have hne : k.sched.current ≠ some n := by
      intro hcon
      cases hpick with
      | front => exact (hp.current n hcon).2.1 List.mem_cons_self
      | fallback hfall => exact hidle (hfall.trans (hcon.symm.trans hc))
    exact ⟨_, step_of_picks hp hpick hne rfl rfl⟩
  | yielded hc hyields => exact hyields.step hp hc
  | @delivered c ep table _ _ _ call s' e _ q₁ _ hc _ _ hunblocks hyields =>
    obtain ⟨hcurrent, hidle⟩ := hunblocks.current_eq
    obtain ⟨label, hstep⟩ :=
      hyields.step (hunblocks.partitioned hp) (hcurrent.trans hc)
    obtain ⟨joined, rfl⟩ := hunblocks.joined
    have hdesk : (({ k.withCall table call with sched := s' } : Kernel).sched.desk (q ++ joined)) =
        ⟨q ++ joined, k.sched.current, k.sched.idle⟩ := by
      unfold Scheduler.desk
      rw [← hcurrent, ← hidle]
    rw [hdesk] at hstep
    exact ⟨label, hstep.after_joins⟩
  | @blocked c n _ _ _ _ rest r hc _ _ _ hpick hne =>
    have hother : k.sched.current ≠ some n := by
      rw [hc]
      rintro ⟨⟩
      exact hne rfl
    exact ⟨_, step_of_picks hp hpick hother rfl rfl⟩
  | continued => exact ⟨none, step_quiet rfl⟩
  | collected => exact ⟨none, step_quiet rfl⟩
  | missed => exact ⟨none, step_quiet rfl⟩
  | collectRefused => exact ⟨none, step_quiet rfl⟩
  | refused => exact ⟨none, step_quiet rfl⟩
  | enqueued => exact ⟨none, step_quiet rfl⟩
  | received => exact ⟨none, step_quiet rfl⟩

/-- So is every syscall. -/
theorem Serves.step {table : TablePtr} {args : SyscallArgs} {reply : SyscallReply}
    (hinv : k.Inv q ex) (hserves : Serves k q ex table args reply k' q' ex') :
    ∃ label, Step (k.sched.desk q) label (k'.sched.desk q') := by
  cases hserves with
  | quiet => exact ⟨none, step_quiet rfl⟩
  | refused => exact ⟨none, step_quiet rfl⟩
  | sent => exact ⟨none, step_quiet rfl⟩
  | received => exact ⟨none, step_quiet rfl⟩
  | yielded hc hyields => exact hyields.step hinv.part hc
  | exited heffect => exact heffect.step hinv

end Kernel

/-! ## Runs of the system -/

variable {AS : Type}

/-- The task that the event has dispatched. -/
def SystemEvent.dispatched (ev : SystemEvent AS) : Option TaskHandle :=
  ev.before.kernel.sched.dispatchedSince ev.after.kernel.sched

/-- The tasks that the events have dispatched, in order: one for each change of the current
task. -/
def dispatches (evs : List (SystemEvent AS)) : List TaskHandle :=
  called (evs.map SystemEvent.dispatched)

namespace System

open Kernel

variable [Build] {s s' : System AS} {q q' ex ex' : List TaskHandle} {ev : SystemEvent AS}
  {evs evs' : List (SystemEvent AS)}

theorem Effect.step {op : SystemOp AS} {reply : Except SchedError SystemReply} {k' : Kernel}
    (hinv : s.kernel.Inv q ex) (heffect : Effect s q ex op reply k' q' ex') :
    ∃ label, Step (s.kernel.sched.desk q) label (k'.sched.desk q') := by
  cases heffect with
  | kernel heffect => exact heffect.step hinv
  | syscall hserves => exact hserves.step hinv
  | store => exact ⟨none, step_quiet rfl⟩

variable [Mmu AS]

/-- A step of the system is a step of the desk. -/
theorem desk_step (hinv : s.kernel.Inv q ex) (hstep : SystemStep s ev s') :
    ∃ q' ex', s'.kernel.Inv q' ex' ∧
      Step (s.kernel.sched.desk q) ev.dispatched (s'.kernel.sched.desk q') := by
  obtain ⟨q', ex', heffect⟩ := effect_of_step hinv hstep
  refine ⟨q', ex', heffect.inv hinv, ?_⟩
  obtain ⟨label, hdesk⟩ := heffect.step hinv
  unfold SystemEvent.dispatched
  rw [hstep.before, hstep.after]
  exact step_dispatchedSince hdesk

/-- A run of the system is a run of the desk. -/
theorem desk_run (hinv : s.kernel.Inv q ex) (hrun : Run SystemStep s evs s') :
    ∃ q' ex', s'.kernel.Inv q' ex' ∧
      Run Step (s.kernel.sched.desk q) (evs.map SystemEvent.dispatched)
        (s'.kernel.sched.desk q') := by
  induction hrun generalizing q ex with
  | nil s => exact ⟨q, ex, hinv, .nil _⟩
  | cons hstep _ ih =>
    obtain ⟨q₁, ex₁, hinv₁, hone⟩ := desk_step hinv hstep
    obtain ⟨q', ex', hinv', hrest⟩ := ih hinv₁
    exact ⟨q', ex', hinv', .cons hone hrest⟩

/-- The states of a run from boot satisfy the invariant of the scheduled kernel. -/
theorem inv_of_boot {ipc : IpcSystem TablePtr} (hsound : ipc.Sound)
    (hboot : s.kernel = boot ipc) (hrun : Run SystemStep s evs s') :
    ∃ q ex, s'.kernel.Inv q ex := by
  have hstart : s.kernel.Inv [] [] := by
    rw [hboot]
    exact boot_inv hsound
  obtain ⟨q', ex', hinv, -⟩ := desk_run hstart hrun
  exact ⟨q', ex', hinv⟩

/-- In every run from boot in which every slot is registered once, and whatever the tasks do
next: the task at position `i` of the ready queue moves up one position with each change of
the current task and becomes current with change number `i + 1`; no task that was not in
the queue is dispatched before it; and idle is dispatched only from an empty queue. -/
theorem round_robin_of_run {setup : List (IpcSystem.Event TablePtr)} {ipc : IpcSystem TablePtr}
    {s₁ : System AS} (hsetup : Run IpcSystem.Step IpcSystem.boot setup ipc)
    (hdrained : ∀ ev ∈ setup, Drained ev) (hboot : s.kernel = boot ipc)
    (hrun : Run SystemStep s evs s₁) {q : List TaskHandle}
    (hq : s₁.kernel.sched.ready.Represents q) (hnext : Run SystemStep s₁ evs' s') :
    (∀ i h, q[i]? = some h →
      ((dispatches evs').length ≤ i → s'.kernel.sched.current ≠ some h ∧
        ∃ q', s'.kernel.sched.ready.Represents q' ∧
          q'[i - (dispatches evs').length]? = some h) ∧
      (i < (dispatches evs').length → (dispatches evs')[i]? = some h) ∧
      ∀ n ∉ q, ∀ j, (dispatches evs')[j]? = some n → i < j) ∧
    ∀ ev ∈ evs', ∀ n, ev.dispatched = some n → ev.before.kernel.sched.idle = some n →
      ev.before.kernel.sched.ready.isEmpty ∧ ev.after.kernel.sched.ready.isEmpty := by
  obtain ⟨q₁, ex, hinv⟩ := inv_of_boot (boot_sound.run hsetup hdrained) hboot hrun
  obtain rfl : q = q₁ := hq.unique hinv.part.ready
  obtain ⟨q', ex', hinv', hdesk⟩ := desk_run hinv hnext
  refine ⟨fun i h hi => ?_, fun ev hev n hn hidle => ?_⟩
  · obtain ⟨hwaits, hcalled⟩ := position_of_run hdesk hi
    refine ⟨fun hle => ?_, hcalled, fun n hnew j hj => no_overtaking hdesk hi hnew hj⟩
    have hplace := hwaits hle
    refine ⟨fun hcurrent => ?_, q', hinv'.part.ready, hplace⟩
    exact (hinv'.part.current h hcurrent).2.1 (List.mem_of_getElem? hplace)
  · obtain ⟨s₂, s₃, past, rest, hpast, hstep, -⟩ := hnext.exists_step hev
    obtain ⟨q₂, ex₂, hinv₂, -⟩ := desk_run hinv hpast
    obtain ⟨q₃, ex₃, hinv₃, hone⟩ := desk_step hinv₂ hstep
    rw [hn] at hone
    rw [hstep.before] at hidle ⊢
    rw [hstep.after]
    obtain ⟨hbefore, hafter⟩ := hone.standIn_last hidle
    exact ⟨hinv₂.part.ready.isEmpty_iff.mpr hbefore, hinv₃.part.ready.isEmpty_iff.mpr hafter⟩

/-- Three kernel tasks; the first is dispatched. -/
def threeTasksOps : List KernelOp :=
  [.addTask ⟨⟨0, 0⟩⟩ ⟨⟨0, 0⟩⟩ 4096 8192, .addTask ⟨⟨1, 0⟩⟩ ⟨⟨0, 0⟩⟩ 4096 16384,
    .addTask ⟨⟨2, 0⟩⟩ ⟨⟨0, 0⟩⟩ 4096 24576, .start, .resume]

def threeTasks : Kernel := @afterTrace debugBuild (boot IpcSystem.boot) threeTasksOps

/-- Two tasks yield. -/
def twoYieldsOps : List KernelOp := [.yieldNow, .resume, .yieldNow]

omit [Build] in
theorem threeTasks_ready : threeTasks.sched.ready.Represents [⟨⟨1, 0⟩⟩, ⟨⟨2, 0⟩⟩] := by
  have hlen : threeTasks.sched.ready.len = 2 := by with_unfolding_all rfl
  have hhead : threeTasks.sched.ready.head = 1 := by with_unfolding_all rfl
  have hfirst : threeTasks.sched.ready.buf 1 = some ⟨⟨1, 0⟩⟩ := by with_unfolding_all rfl
  have hsecond : threeTasks.sched.ready.buf 2 = some ⟨⟨2, 0⟩⟩ := by with_unfolding_all rfl
  refine ⟨?_, hlen, by decide, ?_⟩
  · rw [hhead]
    decide
  · rw [hhead]
    intro k y hk
    match k, hk with
    | 0, hk => exact hfirst.trans hk
    | 1, hk => exact hsecond.trans hk
    | k + 2, hk => exact (nomatch hk)

omit [Build] in
theorem twoYields_dispatches :
    ((@trace debugBuild threeTasks twoYieldsOps).map fun ev =>
      ev.before.sched.dispatchedSince ev.after.sched) =
        [some ⟨⟨1, 0⟩⟩, none, some ⟨⟨2, 0⟩⟩] := by
  decide +kernel

omit [Build] [Mmu AS] in
/-- The task at position 1 is current after two changes. -/
theorem round_robin_of_run_three : ∃ (past evs : List (SystemEvent Unit)) (s : System Unit),
    @Run _ _ (@SystemStep Unit debugBuild noMmu) (board (boot IpcSystem.boot)) past
      (board threeTasks) ∧
    @Run _ _ (@SystemStep Unit debugBuild noMmu) (board threeTasks) evs s ∧
    evs.map SystemEvent.dispatched = [some ⟨⟨1, 0⟩⟩, none, some ⟨⟨2, 0⟩⟩] ∧
      (1 < (dispatches evs).length → (dispatches evs)[1]? = some ⟨⟨2, 0⟩⟩) ∧
      ∀ n ∉ [(⟨⟨1, 0⟩⟩ : TaskHandle), ⟨⟨2, 0⟩⟩], ∀ j, (dispatches evs)[j]? = some n → 1 < j := by
  let _ : Build := debugBuild
  let _ : Mmu Unit := noMmu
  have hrun : Run SystemStep (board (boot IpcSystem.boot)) _ (board threeTasks) :=
    run_of_kernel (board (boot IpcSystem.boot)) (trace_run (boot IpcSystem.boot) threeTasksOps)
  have hnext := run_of_kernel (board threeTasks) (trace_run threeTasks twoYieldsOps)
  have hrobin := (round_robin_of_run (.nil _) (by simp) rfl hrun threeTasks_ready hnext).1 1 _ rfl
  refine ⟨_, _, _, hrun, hnext, ?_, hrobin.2⟩
  rw [List.map_map]
  exact twoYields_dispatches

end System

end Tyrne
