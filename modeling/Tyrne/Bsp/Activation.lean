import Tyrne.Bsp.Runs

/-!
# The active address space

Three places activate an address space: the dispatch of `start` and of an exit, which does
so always, and the two switches, which skip it when both tasks share one. Whatever
happens, the address space last activated is the one the current task was registered with.
-/

namespace Tyrne

open Scheduler IpcSystem

namespace Kernel

/-- Every registered task has an address space that `R` gives it, and the current task's is
the one last activated. -/
structure Active (R : TaskHandle → AddressSpaceHandle → Prop) (k : Kernel) : Prop where
  registered : ∀ i h, k.sched.taskHandles i = some h →
    ∃ space, k.sched.taskAddressSpaceHandles i = some space ∧ R h space
  recorded : ∀ h space, R h space → k.sched.Registered h ∧
    k.sched.taskAddressSpaceHandles h.slot.index = some space
  current : ∀ c, k.sched.current = some c →
    k.core.activated = k.sched.taskAddressSpaceHandles c.slot.index

variable {R R' : TaskHandle → AddressSpaceHandle → Prop} {k k' : Kernel}
  {q q' ex ex' rest : List TaskHandle} {c n : TaskHandle} {r : SchedQueue taskArenaCapacity}

theorem Active.congr (ha : Active R k) (hR : ∀ h space, R' h space ↔ R h space) :
    Active R' k where
  registered i h hh := by
    obtain ⟨space, hspace, hr⟩ := ha.registered i h hh
    exact ⟨space, hspace, (hR h space).mpr hr⟩
  recorded h space hr := ha.recorded h space ((hR h space).mp hr)
  current := ha.current

/-- Nothing that concerns address spaces has changed. -/
theorem Active.same (ha : Active R k) (hhandles : k'.sched.taskHandles = k.sched.taskHandles)
    (hspaces : k'.sched.taskAddressSpaceHandles = k.sched.taskAddressSpaceHandles)
    (hcurrent : k'.sched.current = k.sched.current)
    (hactivated : k'.core.activated = k.core.activated) : Active R k' where
  registered i h hh := by
    rw [hspaces]
    exact ha.registered i h (hhandles ▸ hh)
  recorded h space hr := by
    unfold Scheduler.Registered
    rw [hhandles, hspaces]
    exact ha.recorded h space hr
  current c hc := by
    rw [hspaces, hactivated]
    exact ha.current c (hcurrent ▸ hc)

/-- The switch window activates the next task's address space, or finds it active. -/
theorem Active.handover (ha : Active R k) (hc : k.sched.current = some c)
    (hcreg : k.sched.Registered c) (hnreg : k.sched.Registered n) :
    (k.sched.handover c.slot.index n.slot.index).or k.core.activated =
      k.sched.taskAddressSpaceHandles n.slot.index := by
  obtain ⟨space, hspace, -⟩ := ha.registered _ c hcreg
  obtain ⟨space', hspace', -⟩ := ha.registered _ n hnreg
  have hactivated := ha.current c hc
  unfold Scheduler.handover
  rw [hactivated, hspace, hspace']
  by_cases heq : space = space'
  · subst heq
    simp [addressSpaceActivationTarget]
  · simp [addressSpaceActivationTarget, heq]

/-- The dispatch tail activates whatever the task has. -/
theorem Active.dispatched (ha : Active R k) (hnreg : k.sched.Registered n) :
    Active R (dispatched { k with sched := { k.sched with ready := r, current := some n } }
      n.slot.index) where
  registered := ha.registered
  recorded := ha.recorded
  current c hc := by
    obtain rfl : n = c := Option.some_injective _ hc
    obtain ⟨space, hspace, -⟩ := ha.registered _ n hnreg
    show (k.sched.taskAddressSpaceHandles n.slot.index).or k.core.activated =
      k.sched.taskAddressSpaceHandles n.slot.index
    rw [hspace]
    rfl

theorem Yields.active {call : Suspended} {e : Exit Unit} (hyields : Yields k q c call e k' q')
    (hp : k.sched.Partitioned q ex) (hc : k.sched.current = some c) (ha : Active R k) :
    Active R k' := by
  cases hyields with
  | stays => exact ha.same rfl rfl rfl rfl
  | @switches n _ _ hsplit hn hr =>
    refine ⟨ha.registered, ha.recorded, fun c' hc' => ?_⟩
    obtain rfl : n = c' := Option.some_injective _ hc'
    exact ha.handover hc (hp.current c hc).1.1 (hp.queued n hn).1.1

/-- A registration of a vacant slot concerns no other task. -/
theorem Active.registers {h : TaskHandle} {space : AddressSpaceHandle} {idle : Option TaskHandle}
    {context : TaskContext} {s' : Scheduler} (ha : Active R k) (hp : k.sched.Partitioned q ex)
    (hreg : Registers k.sched h space r idle context s') (hvacant : k.Vacant h) :
    Active (fun h' space' => R h' space' ∨ h' = h ∧ space' = space) { k with sched := s' } := by
  have hother : ∀ {c : TaskHandle}, k.sched.Registered c → c.slot.index ≠ h.slot.index := by
    intro c hc hindex
    unfold Registered at hc
    rw [hindex, hvacant.2] at hc
    cases hc
  refine ⟨fun i c hc => ?_, fun c space' hr => ?_, fun c hc => ?_⟩
  · show ∃ space', s'.taskAddressSpaceHandles i = some space' ∧ _
    have hc : s'.taskHandles i = some c := hc
    rw [hreg.taskHandles] at hc
    rw [hreg.spaces]
    by_cases hi : i = h.slot.index
    · subst hi
      rw [Function.update_self] at hc ⊢
      exact ⟨space, rfl, Or.inr ⟨(Option.some_injective _ hc).symm, rfl⟩⟩
    · rw [Function.update_of_ne hi] at hc ⊢
      obtain ⟨space', hspace, hr⟩ := ha.registered i c hc
      exact ⟨space', hspace, Or.inl hr⟩
  · show s'.taskHandles c.slot.index = some c ∧
      s'.taskAddressSpaceHandles c.slot.index = some space'
    rw [hreg.taskHandles, hreg.spaces]
    rcases hr with hr | ⟨rfl, rfl⟩
    · obtain ⟨hcreg, hspace⟩ := ha.recorded c space' hr
      rw [Function.update_of_ne (hother hcreg), Function.update_of_ne (hother hcreg)]
      exact ⟨hcreg, hspace⟩
    · rw [Function.update_self, Function.update_self]
      exact ⟨rfl, rfl⟩
  · have hc : k.sched.current = some c := hreg.current ▸ hc
    show k.core.activated = s'.taskAddressSpaceHandles c.slot.index
    rw [hreg.spaces, Function.update_of_ne (hother (hp.current c hc).1.1)]
    exact ha.current c hc

variable [Build] {op : KernelOp} {reply : Except SchedError KernelReply}

omit [Build] in
/-- An operation that registers no task. -/
theorem Active.unregistered (ha : Active R k') (hop : op.registration = none) :
    Active (fun h space => R h space ∨ op.registration = some (h, space)) k' := by
  apply ha.congr
  intro h space
  rw [hop]
  simp

theorem Effect.active (hinv : k.Inv q ex) (heffect : Effect k q ex op reply k' q' ex')
    (ha : Active R k) :
    Active (fun h space => R h space ∨ op.registration = some (h, space)) k' := by
  have hregisters : ∀ {h : TaskHandle} {space : AddressSpaceHandle},
      op.registration = some (h, space) →
      Active (fun h' space' => R h' space' ∨ h' = h ∧ space' = space) k' →
      Active (fun h space => R h space ∨ op.registration = some (h, space)) k' := by
    intro h space hop ha'
    apply ha'.congr
    intro h' space'
    rw [hop, Option.some_inj, Prod.mk.injEq, eq_comm (a := h), eq_comm (a := space)]
  cases heffect with
  | joined hop hvacant hreg => exact hregisters hop (ha.registers hinv.part hreg hvacant)
  | idled hop hvacant _ hreg => exact hregisters hop (ha.registers hinv.part hreg hvacant)
  | started _ hpick => exact (ha.dispatched (hinv.part.picked hpick).1.1).unregistered rfl
  | exited _ _ hpick => exact (ha.dispatched (hinv.part.picked hpick).1.1).unregistered rfl
  | continued => exact Active.unregistered (ha.same rfl rfl rfl rfl) rfl
  | collected => exact Active.unregistered (ha.same rfl rfl rfl rfl) rfl
  | missed => exact Active.unregistered (ha.same rfl rfl rfl rfl) rfl
  | collectRefused => exact Active.unregistered (ha.same rfl rfl rfl rfl) rfl
  | yielded hc hyields => exact (hyields.active hinv.part hc ha).unregistered rfl
  | refused hop =>
    refine Active.unregistered (ha.same rfl rfl rfl rfl) ?_
    cases op with
    | sendAndYield => rfl
    | recvAndYield => rfl
    | _ => cases hop
  | enqueued => exact Active.unregistered (ha.same rfl rfl rfl rfl) rfl
  | @delivered c _ table _ _ _ call s' _ _ _ _ hc _ _ hunblocks hyields =>
    have hwoken : Active R { k.withCall table call with sched := s' } := by
      cases hunblocks <;> exact ha.same rfl rfl rfl rfl
    have hp := hunblocks.partitioned hinv.part
    exact (hyields.active hp (hunblocks.current_eq.1.trans hc) hwoken).unregistered rfl
  | received => exact Active.unregistered (ha.same rfl rfl rfl rfl) rfl
  | @blocked c n _ _ _ _ _ _ hc _ _ _ hpick =>
    refine Active.unregistered ⟨ha.registered, ha.recorded, fun c' hc' => ?_⟩ rfl
    obtain rfl : n = c' := Option.some_injective _ hc'
    exact ha.handover hc (hinv.part.current c hc).1.1 (hinv.part.picked hpick).1.1

theorem Serves.active {table : TablePtr} {args : SyscallArgs} {reply : SyscallReply}
    (hinv : k.Inv q ex) (hserves : Serves k q ex table args reply k' q' ex') (ha : Active R k) :
    Active R k' := by
  cases hserves with
  | quiet => exact ha
  | refused => exact ha.same rfl rfl rfl rfl
  | sent => exact ha.same rfl rfl rfl rfl
  | received => exact ha.same rfl rfl rfl rfl
  | yielded hc hyields => exact hyields.active hinv.part hc ha
  | exited heffect =>
    apply (heffect.active hinv ha).congr
    intro h space
    simp [KernelOp.registration]

end Kernel

/-! ## Runs of the system -/

variable {AS : Type}

/-- The task that the event registers, and its address space. -/
def SystemEvent.registration (ev : SystemEvent AS) : Option (TaskHandle × AddressSpaceHandle) :=
  match ev.op with
  | .kernel op => op.registration
  | _ => none

namespace System

open Kernel

/-- The address space last activated, as the arena has it. -/
def activeSpace (s : System AS) : Option (AddressSpace AS) :=
  s.kernel.core.activated.bind (getAddressSpace s.asArena)

variable [Build] {s s' : System AS} {q q' ex ex' : List TaskHandle} {op : SystemOp AS}
  {reply : Except SchedError SystemReply} {evs : List (SystemEvent AS)}
  {R : TaskHandle → AddressSpaceHandle → Prop}

theorem Effect.active {after : System AS} (hinv : s.kernel.Inv q ex)
    (heffect : Effect s q ex op reply after.kernel q' ex') (ha : s.kernel.Active R) :
    after.kernel.Active fun h space => R h space ∨
      (⟨s, op, reply, after⟩ : SystemEvent AS).registration = some (h, space) := by
  generalize after.kernel = k' at heffect
  have hother : k'.Active R → k'.Active fun h space => R h space ∨
      (none : Option (TaskHandle × AddressSpaceHandle)) = some (h, space) := by
    intro ha'
    apply ha'.congr
    simp
  cases heffect with
  | kernel heffect => exact heffect.active hinv ha
  | syscall hserves => exact hother (hserves.active hinv ha)
  | store => exact hother ha

variable [Mmu AS]

/-- The tasks of a run have the address spaces they were registered with. -/
theorem active_of_steps {ipc : IpcSystem TablePtr} (hsound : ipc.Sound)
    (hboot : s.kernel = boot ipc) (hrun : Run SystemStep s evs s') :
    ∃ q ex, s'.kernel.Inv q ex ∧
      s'.kernel.Active fun h space => ∃ ev ∈ evs, ev.registration = some (h, space) := by
  refine hrun.history (I := fun evs s => ∃ q ex, s.kernel.Inv q ex ∧
    s.kernel.Active fun h space => ∃ ev ∈ evs, ev.registration = some (h, space)) ?_ ?_
  · rw [hboot]
    refine ⟨[], [], boot_inv hsound, (fun i h hh => nomatch hh), fun h space hr => ?_,
      (fun c hc => nomatch hc)⟩
    obtain ⟨ev, hev, -⟩ := hr
    cases hev
  · intro past s ev s' hpast hstep
    obtain ⟨q, ex, hinv, ha⟩ := hpast
    obtain ⟨q', ex', heffect⟩ := effect_of_step hinv hstep
    obtain ⟨before, op, reply, after⟩ := ev
    obtain ⟨rfl, rfl, -, -, -⟩ := hstep
    refine ⟨q', ex', heffect.inv hinv, (heffect.active hinv ha).congr fun h space => ?_⟩
    simp only [List.mem_append, List.mem_singleton, or_and_right, exists_or, exists_eq_left]

/-- In every run in which every slot is registered once, with an address space that is
live, whenever a task is current, and so whenever one resumes, the address space last
activated is the one the task was registered with. -/
theorem active_of_run {setup : List (IpcSystem.Event TablePtr)} {ipc : IpcSystem TablePtr}
    {c : TaskHandle} (hsetup : Run IpcSystem.Step IpcSystem.boot setup ipc)
    (hdrained : ∀ ev ∈ setup, Drained ev) (hboot : s.kernel = boot ipc)
    (hrun : Run SystemStep s evs s')
    (hlive : ∀ ev ∈ evs, ∀ h space, ev.registration = some (h, space) →
      (getAddressSpace s'.asArena space).isSome)
    (hc : s'.kernel.sched.current = some c) :
    (∃ ev ∈ evs, ∃ space, ev.registration = some (c, space)) ∧
    ∀ ev ∈ evs, ∀ space, ev.registration = some (c, space) →
      s'.kernel.core.activated = some space ∧
        ∃ asp, getAddressSpace s'.asArena space = some asp ∧ s'.activeSpace = some asp := by
  obtain ⟨q, ex, hinv, ha⟩ := active_of_steps (boot_sound.run hsetup hdrained) hboot hrun
  refine ⟨?_, fun ev hev space hregistration => ?_⟩
  · obtain ⟨space, -, ev, hev, hregistration⟩ :=
      ha.registered _ c (hinv.part.current c hc).1.1
    exact ⟨ev, hev, space, hregistration⟩
  · have hspace := (ha.recorded c space ⟨ev, hev, hregistration⟩).2
    have hactivated := (ha.current c hc).trans hspace
    obtain ⟨asp, hasp⟩ := Option.isSome_iff_exists.mp (hlive ev hev c space hregistration)
    refine ⟨hactivated, asp, hasp, ?_⟩
    unfold activeSpace
    rw [hactivated]
    exact hasp

/-- Two tasks in different address spaces; the first yields to the second. -/
def crossingOps : List KernelOp :=
  [.addTask ⟨⟨0, 0⟩⟩ ⟨⟨0, 0⟩⟩ 4096 8192, .addTask ⟨⟨1, 0⟩⟩ ⟨⟨1, 0⟩⟩ 4096 16384, .start, .resume,
    .yieldNow]

def twoSpaces (kernel : Kernel) : System Unit :=
  { board kernel with asArena := (Arena.new.allocated 0 ⟨()⟩).allocated 1 ⟨()⟩ }

omit [Build] [Mmu AS] in
theorem crossingOps_live (k : Kernel) :
    ∀ ev ∈ @trace debugBuild (boot IpcSystem.boot) crossingOps, ∀ p ∈ ev.op.registration,
      (getAddressSpace (twoSpaces k).asArena p.2).isSome := by
  show ∀ ev ∈ @trace debugBuild (boot IpcSystem.boot) crossingOps, ∀ p ∈ ev.op.registration,
    (getAddressSpace (twoSpaces (boot IpcSystem.boot)).asArena p.2).isSome
  decide +kernel

omit [Build] [Mmu AS] in
/-- After the yield the second task is current, in its own address space. -/
theorem active_of_run_crossing : ∃ (evs : List (SystemEvent Unit)) (s : System Unit),
    @Run _ _ (@SystemStep Unit debugBuild noMmu) (twoSpaces (boot IpcSystem.boot)) evs s ∧
    s.kernel.sched.current = some ⟨⟨1, 0⟩⟩ ∧ s.activeSpace = some ⟨()⟩ ∧
    (∃ ev ∈ evs, ∃ space, ev.registration = some (⟨⟨1, 0⟩⟩, space)) ∧
    ∀ ev ∈ evs, ∀ space, ev.registration = some (⟨⟨1, 0⟩⟩, space) →
      s.kernel.core.activated = some space ∧
        ∃ asp, getAddressSpace s.asArena space = some asp ∧ s.activeSpace = some asp := by
  let _ : Build := debugBuild
  let _ : Mmu Unit := noMmu
  have hrun := run_of_kernel (twoSpaces (boot IpcSystem.boot))
    (trace_run (boot IpcSystem.boot) crossingOps)
  have hcurrent : (afterTrace (boot IpcSystem.boot) crossingOps).sched.current =
      some ⟨⟨1, 0⟩⟩ := by with_unfolding_all rfl
  have hspace : (twoSpaces (afterTrace (boot IpcSystem.boot) crossingOps)).activeSpace =
      some ⟨()⟩ := by with_unfolding_all rfl
  refine ⟨_, _, hrun, hcurrent, hspace, active_of_run (.nil _) (by simp) rfl hrun ?_ hcurrent⟩
  intro ev hev h space hregistration
  obtain ⟨kev, hkev, rfl⟩ := List.mem_map.mp hev
  exact crossingOps_live _ kev hkev (h, space) hregistration

end System

end Tyrne
