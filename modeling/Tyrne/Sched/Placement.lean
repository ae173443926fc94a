import Tyrne.Sched.Runs

/-!
# Every task has one place

Over whole runs of the scheduled kernel: the ready queue holds no task twice and none that
is current, idle, blocked or exited; a task that may still run is current, queued or
blocked, and only one of these; no operation that keeps the calling contract panics; and
the context switches are between different tasks, with idle as the last choice.
-/

namespace Tyrne

open Scheduler IpcSystem

/-- The task waits for a message. -/
def Scheduler.Blocked (s : Scheduler) (h : TaskHandle) : Prop :=
  ∃ ep, s.taskStates h.slot.index = .blocked ep

/-- Where the tasks are: `q` is the ready queue and `ex` holds the exited tasks. -/
structure Scheduler.Placement (s : Scheduler) (q ex : List TaskHandle) : Prop where
  queue : s.ready.Represents q
  nodup : q.Nodup
  not_current : ∀ h ∈ q, s.current ≠ some h
  not_idle : ∀ h ∈ q, s.idle ≠ some h
  not_blocked : ∀ h ∈ q, ¬ s.Blocked h
  not_exited : ∀ h ∈ q, h ∉ ex
  placed : ∀ h, s.Registered h → h ∉ ex → s.idle ≠ some h →
    s.current = some h ∧ h ∉ q ∧ ¬ s.Blocked h ∨
    s.current ≠ some h ∧ h ∈ q ∧ ¬ s.Blocked h ∨
    s.current ≠ some h ∧ h ∉ q ∧ s.Blocked h

theorem Scheduler.Runnable.not_blocked {s : Scheduler} {h : TaskHandle} (hrun : s.Runnable h) :
    ¬ s.Blocked h := by
  intro hblocked
  obtain ⟨ep, hstate⟩ := hblocked
  rw [hrun.2] at hstate
  cases hstate

theorem Scheduler.Partitioned.placement {s : Scheduler} {q ex : List TaskHandle}
    (hp : s.Partitioned q ex) : s.Placement q ex where
  queue := hp.ready
  nodup := hp.nodup
  not_current h hh hcur := (hp.current h hcur).2.1 hh
  not_idle h hh hidle := (hp.idle h hidle).2.1 hh
  not_blocked h hh := (hp.queued h hh).1.not_blocked
  not_exited h hh := (hp.queued h hh).2
  placed h hreg hex hidle := by
    cases hstate : s.taskStates h.slot.index with
    | idle => exact absurd hstate (hp.occupied _ h hreg)
    | ready =>
      have hrun : s.Runnable h := ⟨hreg, hstate⟩
      rcases hp.placed h hrun with hcur | hidle' | hq | hex'
      · exact Or.inl ⟨hcur, (hp.current h hcur).2.1, hrun.not_blocked⟩
      · exact absurd hidle' hidle
      · exact Or.inr (Or.inl ⟨fun hcur => (hp.current h hcur).2.1 hq, hq, hrun.not_blocked⟩)
      · exact absurd hex' hex
    | blocked ep =>
      have hblocked : s.Blocked h := ⟨ep, hstate⟩
      refine Or.inr (Or.inr ⟨fun hcur => ?_, fun hq => ?_, hblocked⟩)
      · exact (hp.current h hcur).1.not_blocked hblocked
      · exact (hp.queued h hq).1.not_blocked hblocked

namespace KernelEvent

/-- The task that the event has terminated. -/
def exits (ev : KernelEvent) : List TaskHandle :=
  match ev.op, ev.reply with
  | .taskExit, .ok .switched => ev.before.sched.current.toList
  | _, _ => []

/-- A switch of a task that is not exiting leads to another slot, and idle is dispatched
from an empty queue only. -/
structure SwitchesWell (ev : KernelEvent) : Prop where
  apart : ev.reply = .ok .switched → ev.op ≠ .start → ev.op ≠ .taskExit →
    ∃ c n, ev.before.sched.current = some c ∧ ev.after.sched.current = some n ∧
      c.slot.index ≠ n.slot.index
  idle_last : ev.reply = .ok .switched → ev.after.sched.current = ev.after.sched.idle →
    ev.before.sched.ready.isEmpty ∧ ev.after.sched.ready.isEmpty

theorem exits_eq_nil {ev : KernelEvent}
    (hother : ev.reply ≠ .ok .switched ∨ ev.op ≠ .taskExit) : ev.exits = [] := by
  unfold exits
  split
  · next hop hreply => exact absurd hop (hother.resolve_left (not_not.mpr hreply))
  · rfl

end KernelEvent

namespace Kernel

variable [Build] {k k' : Kernel} {q q' ex ex' : List TaskHandle} {op : KernelOp}
  {reply : Except SchedError KernelReply} {ev : KernelEvent} {evs : List KernelEvent}

/-! ## One operation -/

omit [Build] in
theorem exits_of_other (hother : reply ≠ .ok .switched ∨ op ≠ .taskExit) :
    ex = ex ++ (⟨k, op, reply, k'⟩ : KernelEvent).exits := by
  rw [KernelEvent.exits_eq_nil hother, List.append_nil]

theorem Effect.exits_eq (heffect : Effect k q ex op reply k' q' ex') :
    ex' = ex ++ (⟨k, op, reply, k'⟩ : KernelEvent).exits := by
  cases heffect with
  | exited hc => simp [KernelEvent.exits, hc]
  | joined => exact exits_of_other (Or.inl (by simp))
  | idled => exact exits_of_other (Or.inl (by simp))
  | refused => exact exits_of_other (Or.inl (by simp))
  | _ => exact exits_of_other (Or.inr (by simp))

omit [Build] in
/-- A yield that switches leaves for another slot, and not for idle. -/
theorem Yields.apart {c : TaskHandle} {call : Suspended} {e : Exit Unit}
    (hyields : Yields k q c call e k' q') (hp : k.sched.Partitioned q ex)
    (hc : k.sched.current = some c) (he : e = .switched) :
    ∃ n, k'.sched.current = some n ∧ c.slot.index ≠ n.slot.index ∧ k'.sched.idle ≠ some n := by
  obtain ⟨hcrun, hcq, -⟩ := hp.current c hc
  cases hyields with
  | stays => cases he
  | @switches n _ _ _ hn _ =>
    refine ⟨n, rfl, fun hindex => ?_, fun hidle => ?_⟩
    · have heq := hcrun.1.unique (hp.queued n hn).1.1 hindex
      exact hcq (heq ▸ hn)
    · exact (hp.idle n hidle).2.1 hn

omit [Build] in
theorem well_of_no_switch (hreply : ev.reply ≠ .ok .switched) : ev.SwitchesWell :=
  ⟨fun hcon => absurd hcon hreply, fun hcon => absurd hcon hreply⟩

omit [Build] in
/-- A yield that switches is between two slots and not to idle. -/
theorem well_of_yield {k₁ : Kernel} {c : TaskHandle} {call : Suspended} {e : Exit Unit}
    {mk : Unit → KernelReply} (hyields : Yields k₁ q c call e k' q')
    (hp : k₁.sched.Partitioned q ex) (hc : k₁.sched.current = some c)
    (hsame : k.sched.current = some c) (hmk : ∀ a, mk a ≠ .switched) :
    (⟨k, op, .ok (e.reply mk), k'⟩ : KernelEvent).SwitchesWell := by
  have hnext : (Except.ok (e.reply mk) : Except SchedError _) = .ok .switched →
      ∃ n, k'.sched.current = some n ∧ c.slot.index ≠ n.slot.index ∧ k'.sched.idle ≠ some n := by
    intro hreply
    apply hyields.apart hp hc
    exact Exit.eq_switched hmk (Except.ok.inj hreply)
  refine ⟨fun hreply _ _ => ?_, fun hreply hidle => ?_⟩
  · obtain ⟨n, hn, hindex, -⟩ := hnext hreply
    exact ⟨c, n, hsame, hn, hindex⟩
  · obtain ⟨n, hn, -, hne⟩ := hnext hreply
    exact absurd (hidle.symm.trans hn) hne

theorem Effect.switches_well (hinv : k.Inv q ex) (heffect : Effect k q ex op reply k' q' ex') :
    (⟨k, op, reply, k'⟩ : KernelEvent).SwitchesWell := by
  have hempty : ∀ {n : TaskHandle} {rest : List TaskHandle} {r : SchedQueue taskArenaCapacity},
      Picks k.sched.idle q n rest → r.Represents rest → some n = k.sched.idle →
      k.sched.ready.isEmpty ∧ r.isEmpty := by
    intro n rest r hpick hr hidle
    cases hpick with
    | front => exact absurd List.mem_cons_self (hinv.part.idle n hidle.symm).2.1
    | fallback => exact ⟨hinv.part.ready.isEmpty_iff.mpr rfl, hr.isEmpty_iff.mpr rfl⟩
  cases heffect with
  | started _ hpick hr =>
    exact ⟨fun _ hop _ => absurd rfl hop, fun _ hidle => hempty hpick hr hidle⟩
  | exited _ _ hpick hr =>
    exact ⟨fun _ _ hop => absurd rfl hop, fun _ hidle => hempty hpick hr hidle⟩
  | @blocked c n _ _ _ _ _ _ hc _ _ _ hpick hne hr =>
    refine ⟨fun _ _ _ => ⟨c, n, hc, rfl, fun hindex => ?_⟩, fun _ hidle => hempty hpick hr hidle⟩
    have hnrun := (hinv.part.picked hpick).1
    have hcrun := (hinv.part.current c hc).1
    exact hne (hnrun.1.unique hcrun.1 hindex.symm)
  | yielded hc hyields => exact well_of_yield hyields hinv.part hc hc (by simp)
  | delivered hc _ _ hunblocks hyields =>
    have hp := hunblocks.partitioned hinv.part
    exact well_of_yield hyields hp (hunblocks.current_eq.1.trans hc) hc (by simp)
  | @continued context reply _ hentry =>
    apply well_of_no_switch
    intro hreply
    cases hreply
    cases context with
    | suspended call => cases call <;> cases hentry
    | _ => cases hentry
  | _ => exact well_of_no_switch (by simp)

/-! ## Whole runs -/

theorem Inv.step (hinv : k.Inv q ex) (hstep : KernelStep k ev k') :
    ∃ q', k'.Inv q' (ex ++ ev.exits) ∧ ev.SwitchesWell := by
  obtain ⟨q', ex', heffect⟩ := hinv.effect hstep
  have hev : (⟨k, ev.op, ev.reply, k'⟩ : KernelEvent) = ev := by
    rw [← hstep.before, ← hstep.after]
  have hexits := heffect.exits_eq
  have hwell := heffect.switches_well hinv
  rw [hev] at hexits hwell
  exact ⟨q', hexits ▸ heffect.inv hinv, hwell⟩

omit [Build] in
theorem boot_inv [Build] {ipc : IpcSystem TablePtr} (hsound : ipc.Sound) :
    (boot ipc).Inv [] [] := ⟨new_partitioned, hsound, iff_of_true rfl rfl⟩

/-- A run keeps the invariant, and its switches are well. -/
theorem inv_of_run {ipc : IpcSystem TablePtr} (hsound : ipc.Sound)
    (hrun : Run KernelStep (boot ipc) evs k) :
    ∃ q, k.Inv q (evs.flatMap KernelEvent.exits) ∧ ∀ ev ∈ evs, ev.SwitchesWell := by
  refine hrun.history (I := fun evs k => ∃ q, k.Inv q (evs.flatMap KernelEvent.exits) ∧
    ∀ ev ∈ evs, ev.SwitchesWell) ⟨[], boot_inv hsound, by simp⟩ ?_
  intro past k₁ ev k₂ hpast hstep
  obtain ⟨q, hinv, hwell⟩ := hpast
  obtain ⟨q', hinv', hev⟩ := hinv.step hstep
  refine ⟨q', by simpa using hinv', fun e he => ?_⟩
  rcases List.mem_append.mp he with hpast | hlast
  · exact hwell e hpast
  · rw [List.mem_singleton.mp hlast]
    exact hev

/-- From every set-up of the IPC objects, any run of the scheduled kernel keeps each task
in one place, switches between different tasks with idle as the last choice, and leaves
no operation that would panic. -/
theorem partition_of_run {setup : List (IpcSystem.Event TablePtr)} {ipc : IpcSystem TablePtr}
    (hsetup : Run IpcSystem.Step IpcSystem.boot setup ipc) (hdrained : ∀ ev ∈ setup, Drained ev)
    (hrun : Run KernelStep (boot ipc) evs k) :
    (∃ q, k.sched.Placement q (evs.flatMap KernelEvent.exits)) ∧
    (∀ op : KernelOp, op.Enabled k.core.running → op.Disciplined k →
      ∃ reply k', (exec op).run k = .returned reply k') ∧
    ∀ ev ∈ evs, ev.SwitchesWell := by
  obtain ⟨q, hinv, hwell⟩ := inv_of_run (boot_sound.run hsetup hdrained) hrun
  refine ⟨⟨q, hinv.part.placement⟩, fun op henabled hdisc => ?_, hwell⟩
  obtain ⟨reply, k', -, -, hexec, -⟩ := ends_of_exec hinv henabled hdisc
  exact ⟨reply, k', hexec⟩

/-- Two kernel tasks; the first is dispatched and yields to the second. -/
def yieldingOps : List KernelOp :=
  [.addTask ⟨⟨0, 0⟩⟩ ⟨⟨0, 0⟩⟩ 4096 8192, .addTask ⟨⟨1, 0⟩⟩ ⟨⟨0, 0⟩⟩ 4096 16384, .start, .resume,
    .yieldNow]

omit [Build] in
theorem partition_of_run_yield :
    (@trace debugBuild (boot IpcSystem.boot) yieldingOps).length = 5 ∧
    ∃ q, (@afterTrace debugBuild (boot IpcSystem.boot) yieldingOps).sched.Placement q
      ((@trace debugBuild (boot IpcSystem.boot) yieldingOps).flatMap KernelEvent.exits) := by
  let _ : Build := debugBuild
  have hlength : (trace (boot IpcSystem.boot) yieldingOps).length = 5 := by
    with_unfolding_all rfl
  have hrun := trace_run (boot IpcSystem.boot) yieldingOps
  exact ⟨hlength, (partition_of_run (.nil _) (by simp) hrun).1⟩

end Kernel

end Tyrne
