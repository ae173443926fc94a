import Tyrne.Sched.Placement
import Tyrne.Sched.Waiters

/-!
# Delivery to a blocked receiver

A send to a waiting receiver stores the message in the endpoint, readies the receiver and
yields; the receiver collects the message when it runs again. In between, any other task
may run, and a receive of another task on the same endpoint takes the message away: the
woken receiver then finds nothing. In every run without such a receive the hand-over
works, which `Handoff` carries along.
-/

namespace Tyrne

open Scheduler IpcSystem IpcQueues

variable {k k' : Kernel} {q q' ex ex' past : List TaskHandle} {i j : Index}
  {h h' c n : TaskHandle} {ep e : EndpointHandle} {st : EndpointState} {table : TablePtr}
  {epCap : CapHandle} {msg : Message} {own : Index → TablePtr}

/-! ## Events of a hand-over -/

namespace KernelEvent

/-- The task that is resumed. -/
def resumes (ev : KernelEvent) : Option TaskHandle :=
  match ev.op with
  | .resume => ev.before.sched.current
  | _ => none

/-- The endpoint of a receive. -/
def receivesOn (ev : KernelEvent) : Option EndpointHandle :=
  match ev.op with
  | .recvAndYield table epCap => targeted (ev.before.ipc.tables table) epCap .recv
  | _ => none

/-- IPC calls of the running task are on its own table. -/
def Private (own : Index → TablePtr) (ev : KernelEvent) : Prop :=
  ∀ table ∈ ev.op.callerTable, ∀ c ∈ ev.before.sched.current, table = own c.slot.index

/-- A task that is resumed has room for a capability. -/
def Roomy (own : Index → TablePtr) (ev : KernelEvent) : Prop :=
  ∀ c ∈ ev.resumes, ¬ (ev.before.ipc.tables (own c.slot.index)).isFull

/-- A receive is on no endpoint whose delivered message is still to be collected. -/
def Uncontended (ev : KernelEvent) : Prop :=
  ∀ ep ∈ ev.receivesOn, (ev.before.ipc.queues.effective ep).delivery = none

instance (own : Index → TablePtr) (ev : KernelEvent) : Decidable (ev.Private own) :=
  inferInstanceAs (Decidable (∀ table ∈ ev.op.callerTable, ∀ c ∈ ev.before.sched.current,
    table = own c.slot.index))

instance (own : Index → TablePtr) (ev : KernelEvent) : Decidable (ev.Roomy own) :=
  inferInstanceAs (Decidable (∀ c ∈ ev.resumes,
    ¬ (ev.before.ipc.tables (own c.slot.index)).isFull))

instance (ev : KernelEvent) : Decidable ev.Uncontended :=
  inferInstanceAs (Decidable (∀ ep ∈ ev.receivesOn,
    (ev.before.ipc.queues.effective ep).delivery = none))

theorem Uncontended.recv {reply : Except SchedError KernelReply}
    (huncontended : (⟨k, .recvAndYield table epCap, reply, k'⟩ : KernelEvent).Uncontended)
    (htarget : Targets (k.ipc.tables table) epCap .recv ep) (msg : Message)
    (cap : Option Capability) : k.ipc.queues.effective ep ≠ .recvComplete msg cap := by
  intro hstate
  have hnone := huncontended ep htarget.targeted
  dsimp only at hnone
  rw [hstate] at hnone
  cases hnone

/-- The event has woken the task of slot `i`. -/
def Wakes (ev : KernelEvent) (i : Index) : Prop :=
  (∃ ep, ev.before.BlockedOn i ep) ∧ ev.after.sched.taskStates i = .ready

/-- The event is a send of the message. -/
def Sends (ev : KernelEvent) (msg : Message) : Prop :=
  ∃ table epCap transfer, ev.op = .sendAndYield table epCap msg transfer

end KernelEvent

/-- The send that last woke the task of slot `i` sent the message. -/
def Delivered (past : List KernelEvent) (i : Index) (msg : Message) : Prop :=
  ∃ before ev after, past = before ++ ev :: after ∧ ev.Wakes i ∧ ev.Sends msg ∧
    ∀ later ∈ after, ¬ later.Wakes i

theorem Delivered.last {past : List KernelEvent} {ev : KernelEvent} (hwakes : ev.Wakes i)
    (hsends : ev.Sends msg) : Delivered (past ++ [ev]) i msg :=
  ⟨past, ev, [], rfl, hwakes, hsends, by simp⟩

theorem Delivered.snoc {past : List KernelEvent} {ev : KernelEvent} (hd : Delivered past i msg)
    (hother : ¬ ev.Wakes i) : Delivered (past ++ [ev]) i msg := by
  obtain ⟨before, sent, after, rfl, hwakes, hsends, hlater⟩ := hd
  refine ⟨before, sent, after ++ [ev], by simp, hwakes, hsends, fun later hlate => ?_⟩
  rcases List.mem_append.mp hlate with hafter | hlast
  · exact hlater later hafter
  · rw [List.mem_singleton.mp hlast]
    exact hother

/-- A resumed receive returns the message whose send has woken it. -/
def KernelEvent.HandsOver (past : List KernelEvent) (ev : KernelEvent) : Prop :=
  ∀ table epCap, ev.op = .resume →
    ev.before.core.running = .resuming (.suspended (.recvAndYield table epCap)) →
    ∃ c msg cap, ev.before.sched.current = some c ∧
      ev.reply = .ok (.received (.received msg cap)) ∧ Delivered past c.slot.index msg

namespace Kernel

/-- A live endpoint has a waiting receiver exactly when one task is blocked on it. -/
def Rendezvous (k : Kernel) : Prop :=
  ∀ ep, Live k.ipc.epArena ep →
    (k.ipc.queues.effective ep = .recvWaiting ↔ ∃! i, k.BlockedOn i ep)

/-! ## The hand-over -/

/-- When the task `h` next runs, it continues with `call`. -/
def Continues (k : Kernel) (q : List TaskHandle) (h : TaskHandle) (call : Suspended) : Prop :=
  (h ∈ q ∧ k.sched.contexts h.slot.index = .suspended call) ∨
    (k.sched.current = some h ∧ k.core.running = .resuming (.suspended call))

/-- The task `h` has been woken to collect a message from `ep`. -/
def Collecting (own : Index → TablePtr) (k : Kernel) (q : List TaskHandle) (h : TaskHandle)
    (ep : EndpointHandle) : Prop :=
  ∃ epCap, k.Continues q h (.recvAndYield (own h.slot.index) epCap) ∧
    Targets (k.ipc.tables (own h.slot.index)) epCap .recv ep

/-- Endpoints, blocked tasks and woken tasks agree; `D i msg` says that `msg` was delivered
to the task of slot `i`. -/
structure Handoff (own : Index → TablePtr) (D : Index → Message → Prop) (k : Kernel)
    (q : List TaskHandle) : Prop where
  waiters : ∀ ep, k.Waiters ep
  blocked : ∀ i ep, k.BlockedOn i ep → ∃ epCap,
    k.sched.contexts i = .suspended (.recvAndYield (own i) epCap) ∧
      Targets (k.ipc.tables (own i)) epCap .recv ep
  awaited : ∀ ep, Live k.ipc.epArena ep → k.ipc.queues.effective ep = .recvWaiting →
    ∃ i, k.BlockedOn i ep
  private_table : ∀ h table epCap, k.Continues q h (.recvAndYield table epCap) →
    table = own h.slot.index
  woken : ∀ h epCap, k.Continues q h (.recvAndYield (own h.slot.index) epCap) →
    ∃ ep msg cap, Targets (k.ipc.tables (own h.slot.index)) epCap .recv ep ∧
      Live k.ipc.epArena ep ∧ k.ipc.queues.effective ep = .recvComplete msg cap ∧
      D h.slot.index msg
  apart : ∀ h h' ep, Collecting own k q h ep → Collecting own k q h' ep → h = h'
  idle : ∀ h, k.sched.idle = some h → ∀ table epCap,
    k.sched.contexts h.slot.index ≠ .suspended (.recvAndYield table epCap)

variable {D D' : Index → Message → Prop}

/-- The endpoint of a collecting task holds its message. -/
theorem Handoff.complete (hh : Handoff own D k q) (hcoll : Collecting own k q h ep) :
    Live k.ipc.epArena ep ∧ ∃ msg cap, k.ipc.queues.effective ep = .recvComplete msg cap := by
  obtain ⟨epCap, hcont, htarget⟩ := hcoll
  obtain ⟨ep', msg, cap, htarget', hlive, hstate, -⟩ := hh.woken h epCap hcont
  cases htarget.unique htarget'
  exact ⟨hlive, msg, cap, hstate⟩

/-- A task that is about to continue is runnable. -/
theorem Continues.runnable (hp : k.sched.Partitioned q ex) {call : Suspended}
    (hcont : k.Continues q h call) : k.sched.Runnable h := by
  rcases hcont with ⟨hq, -⟩ | ⟨hcur, -⟩
  · exact (hp.queued h hq).1
  · exact (hp.current h hcur).1

theorem Handoff.mono (hh : Handoff own D k q)
    (hD : ∀ h call msg, k.Continues q h call → D h.slot.index msg → D' h.slot.index msg) :
    Handoff own D' k q := by
  refine { hh with woken := fun h epCap hcont => ?_ }
  obtain ⟨ep, msg, cap, htarget, hlive, hstate, hd⟩ := hh.woken h epCap hcont
  exact ⟨ep, msg, cap, htarget, hlive, hstate, hD h _ msg hcont hd⟩

/-- A change of the scheduler that leaves the IPC state, the blocked tasks and what they
continue with alone, and lets no other task collect. -/
theorem Handoff.scheduled (hh : Handoff own D k q) (hipc : k'.ipc = k.ipc)
    (hblocked : ∀ i ep, k'.BlockedOn i ep ↔ k.BlockedOn i ep)
    (hcontexts : ∀ i ep, k.BlockedOn i ep → k'.sched.contexts i = k.sched.contexts i)
    (hcont : ∀ h table epCap, k'.Continues q' h (.recvAndYield table epCap) →
      k.Continues q h (.recvAndYield table epCap))
    (hidle : ∀ h, k'.sched.idle = some h → ∀ table epCap,
      k'.sched.contexts h.slot.index ≠ .suspended (.recvAndYield table epCap)) :
    Handoff own D k' q' where
  waiters ep := by
    refine (hh.waiters ep).frame (fun i hi => (hblocked i ep).mp hi) (by rw [hipc]) ?_
    intro i hi
    rw [hipc]
    exact (hh.waiters ep).waiting i ((hblocked i ep).mp hi)
  blocked i ep hi := by
    have hi := (hblocked i ep).mp hi
    rw [hcontexts i ep hi, hipc]
    exact hh.blocked i ep hi
  awaited ep hlive hstate := by
    rw [hipc] at hlive hstate
    obtain ⟨i, hi⟩ := hh.awaited ep hlive hstate
    exact ⟨i, (hblocked i ep).mpr hi⟩
  private_table h table epCap hc := hh.private_table h table epCap (hcont h table epCap hc)
  woken h epCap hc := by
    rw [hipc]
    exact hh.woken h epCap (hcont h _ epCap hc)
  apart h h' ep hc hc' := by
    have hback : ∀ {h}, Collecting own k' q' h ep → Collecting own k q h ep := by
      intro h hcoll
      obtain ⟨epCap, hc, htarget⟩ := hcoll
      rw [hipc] at htarget
      exact ⟨epCap, hcont h _ epCap hc, htarget⟩
    exact hh.apart h h' ep (hback hc) (hback hc')
  idle := hidle

/-- Settling an endpoint is seen by nobody. -/
theorem Handoff.settled (hh : Handoff own D k q) {queues : IpcQueues}
    (hq : Refused k.ipc.epArena k.ipc.queues queues) : Handoff own D (k.withQueues queues) q where
  waiters ep := (hh.waiters ep).settled hq
  blocked := hh.blocked
  awaited ep hlive hstate := hh.awaited ep hlive ((hq.agree ep hlive).symm.trans hstate)
  private_table := hh.private_table
  woken h epCap hc := by
    obtain ⟨ep, msg, cap, htarget, hlive, hstate, hd⟩ := hh.woken h epCap hc
    exact ⟨ep, msg, cap, htarget, hlive, (hq.agree ep hlive).trans hstate, hd⟩
  apart := hh.apart
  idle := hh.idle

/-! ## Calls of the current task -/

section Current

variable (hown : Function.Injective own) (hp : k.sched.Partitioned q ex)
  (hc : k.sched.current = some c)
include hp hc

/-- A blocked task is not the current one. -/
theorem ne_current_of_blocked (hi : k.BlockedOn i ep) : i ≠ c.slot.index := by
  rintro rfl
  have hready := (hp.current c hc).1.2
  rw [hi] at hready
  cases hready

/-- A queued task is not in the slot of the current one. -/
theorem ne_current_of_queued (hq : h ∈ q) : h.slot.index ≠ c.slot.index := by
  intro hindex
  obtain ⟨hcrun, hcq, -⟩ := hp.current c hc
  have heq := (hp.queued h hq).1.1.unique hcrun.1 hindex
  exact hcq (heq ▸ hq)

include hown

/-- A call of the current task replaces its table only. -/
theorem tables_of_blocked (hi : k.BlockedOn i ep) (call : IpcCall) :
    (k.withCall (own c.slot.index) call).ipc.tables (own i) = k.ipc.tables (own i) := by
  apply endCall_tables_of_ne
  exact fun heq => ne_current_of_blocked hp hc hi (hown heq)

theorem tables_of_queued (hq : h ∈ q) (call : IpcCall) :
    (k.withCall (own c.slot.index) call).ipc.tables (own h.slot.index) =
      k.ipc.tables (own h.slot.index) := by
  apply endCall_tables_of_ne
  exact fun heq => ne_current_of_queued hp hc hq (hown heq)

/-- A call of the current task that replaces the state of an endpoint on which nobody
waits and from which nobody is about to collect. -/
theorem Handoff.calls (hh : Handoff own D k q) (hrunning : k.core.running = .task)
    (hlive : Live k.ipc.epArena ep) (hwait : k.ipc.queues.effective ep ≠ .recvWaiting)
    (hfree : ∀ h, ¬ Collecting own k q h ep) (hst : st ≠ .recvWaiting) (t' : CapabilityTable) :
    Handoff own D
      (k.withCall (own c.slot.index) ⟨k.ipc.epArena, k.ipc.queues.put ep st, t'⟩) q := by
  have hqueued : ∀ {h call}, k.Continues q h call → h ∈ q := by
    intro h call hcont
    rcases hcont with ⟨hq, -⟩ | ⟨-, hresuming⟩
    · exact hq
    · rw [hrunning] at hresuming
      cases hresuming
  refine ⟨fun e => (hh.waiters e).call hlive hwait t', fun i e hi => ?_, fun e hlive' hstate => ?_,
    hh.private_table, fun h epCap hcont => ?_, fun h h' e hcoll hcoll' => ?_, hh.idle⟩
  · have hblocked : k.BlockedOn i e := hi
    rw [tables_of_blocked hown hp hc hblocked]
    exact hh.blocked i e hblocked
  · have hne : e ≠ ep := by
      rintro rfl
      exact hst (effective_put.symm.trans hstate)
    exact hh.awaited e hlive' ((effective_put_other hlive hlive' hne).symm.trans hstate)
  · rw [tables_of_queued hown hp hc (hqueued hcont)]
    obtain ⟨e, msg, cap, htarget, hlive', hstate, hd⟩ := hh.woken h epCap hcont
    have hne : e ≠ ep := by
      rintro rfl
      exact hfree h ⟨epCap, hcont, htarget⟩
    exact ⟨e, msg, cap, htarget, hlive', (effective_put_other hlive hlive' hne).trans hstate, hd⟩
  · have hback : ∀ {h}, Collecting own (k.withCall (own c.slot.index)
        ⟨k.ipc.epArena, k.ipc.queues.put ep st, t'⟩) q h e → Collecting own k q h e := by
      intro h hcoll
      obtain ⟨epCap, hcont, htarget⟩ := hcoll
      rw [tables_of_queued hown hp hc (hqueued hcont)] at htarget
      exact ⟨epCap, hcont, htarget⟩
    exact hh.apart h h' e (hback hcoll) (hback hcoll')

end Current

/-! ## Dispatches -/

section Dispatch

variable {r : SchedQueue taskArenaCapacity} {rest : List TaskHandle} {call call' : Suspended}
  {switch : Switch}

/-- Who continues after a switch that has made `n` current: a task of the queue, as it
would have before, the task that was switched out, or `n`. -/
theorem continues_switched (hcur : k.sched.current = some n)
    (hcont : (k.switched switch call).Continues q h call') :
    (h ∈ q ∧ h.slot.index ≠ switch.currentIdx ∧
        k.sched.contexts h.slot.index = .suspended call') ∨
      (h ∈ q ∧ h.slot.index = switch.currentIdx ∧ call' = call) ∨
      (h = n ∧ k.sched.contexts switch.nextIdx = .suspended call') := by
  rcases hcont with ⟨hq, hcontext⟩ | ⟨hh, hrunning⟩
  · by_cases hindex : h.slot.index = switch.currentIdx
    · simp only [switched, hindex, Function.update_self, TaskContext.suspended.injEq] at hcontext
      exact Or.inr (Or.inl ⟨hq, hindex, hcontext.symm⟩)
    · simp only [switched, Function.update_of_ne hindex] at hcontext
      exact Or.inl ⟨hq, hindex, hcontext⟩
  · have heq : n = h := Option.some_injective _ (hcur.symm.trans hh)
    have hnext : k.sched.contexts switch.nextIdx = .suspended call' := Running.resuming.inj hrunning
    exact Or.inr (Or.inr ⟨heq.symm, hnext⟩)

/-- A context that is no receive stays so, unless the task is switched out in one. -/
theorem idle_switched
    (hcontext : ∀ table epCap, k.sched.contexts h.slot.index ≠
      .suspended (.recvAndYield table epCap))
    (hcall : h.slot.index = switch.currentIdx → ∀ table epCap, call ≠ .recvAndYield table epCap)
    (table : TablePtr) (epCap : CapHandle) :
    (k.switched switch call).sched.contexts h.slot.index ≠
      .suspended (.recvAndYield table epCap) := by
  by_cases hindex : h.slot.index = switch.currentIdx
  · simpa [switched, hindex] using hcall hindex table epCap
  · simpa [switched, hindex] using hcontext table epCap

variable (hp : k.sched.Partitioned q ex) (hc : k.sched.current = some c)
include hp

/-- A yield that is not to collect a message later. -/
theorem Handoff.yields (hh : Handoff own D k q) (hc : k.sched.current = some c) {e : Exit Unit}
    (hyields : Yields k q c call e k' q')
    (hcall : ∀ table epCap, call ≠ .recvAndYield table epCap) : Handoff own D k' q' := by
  cases hyields with
  | stays hq hr =>
    subst hq
    exact hh.scheduled rfl (fun i ep => Iff.rfl) (fun i ep hi => rfl)
      (fun h table epCap hcont => hcont) hh.idle
  | @switches n _ r hsplit hn hr =>
    have hindex : n.slot.index ≠ c.slot.index := ne_current_of_queued hp hc hn
    refine hh.scheduled rfl (fun i ep => Iff.rfl) (fun i ep hi => ?_)
      (fun h table epCap hcont => ?_)
      (fun h hidle => idle_switched (hh.idle h hidle) fun _ => hcall)
    · exact Function.update_of_ne (ne_current_of_blocked hp hc hi) _ _
    · rcases continues_switched rfl hcont with ⟨hq, hne, hcontext⟩ | ⟨-, -, heq⟩ | ⟨rfl, hcontext⟩
      · left
        refine ⟨?_, hcontext⟩
        -- the queue of a yield is the old one, and the caller
        have hmem : h ∈ (if k.sched.idle = some c then q else q ++ [c]) := by
          rw [hsplit]
          exact List.mem_cons_of_mem n hq
        split at hmem
        · exact hmem
        · rcases List.mem_append.mp hmem with hq' | hc'
          · exact hq'
          · rw [List.mem_singleton.mp hc'] at hne
            exact absurd rfl hne
      · exact absurd heq.symm (hcall table epCap)
      · exact Or.inl ⟨hn, hcontext⟩

/-- A picked task continues as it would have before. -/
theorem continues_of_picks (hh : Handoff own D k q) (hpick : Picks k.sched.idle q n rest)
    (hmem : h ∈ rest ∨ h = n)
    (hcontext : k.sched.contexts h.slot.index = .suspended (.recvAndYield table epCap)) :
    k.Continues q h (.recvAndYield table epCap) := by
  rcases hmem with hrest | rfl
  · exact Or.inl ⟨(hp.picked hpick).2.2.2.2 h hrest, hcontext⟩
  · cases hpick with
    | front => exact Or.inl ⟨List.mem_cons_self, hcontext⟩
    | fallback hidle => exact absurd hcontext (hh.idle h hidle table epCap)

/-- The dispatch of `start` and of an exit. -/
theorem Handoff.dispatches (hh : Handoff own D k q) (hpick : Picks k.sched.idle q n rest) :
    Handoff own D (dispatched { k with sched := { k.sched with
      ready := r, current := some n } } n.slot.index) rest := by
  refine hh.scheduled rfl (fun i ep => Iff.rfl) (fun i ep hi => rfl)
    (fun h table epCap hcont => ?_) hh.idle
  rcases hcont with ⟨hrest, hcontext⟩ | ⟨hcur, hrunning⟩
  · exact continues_of_picks hp hh hpick (Or.inl hrest) hcontext
  · obtain rfl : n = h := Option.some_injective _ hcur
    exact continues_of_picks hp hh hpick (Or.inr rfl) (Running.resuming.inj hrunning)

/-- The registration of a task, or of idle, that starts from a fresh context. -/
theorem Handoff.registers (hh : Handoff own D k q) {idle : Option TaskHandle}
    {space : AddressSpaceHandle} {context : TaskContext} {s' : Scheduler} (hvacant : k.Vacant h)
    (hreg : Registers k.sched h space r idle context s') (hentry : (entryReply context).isSome)
    (hidle : ∀ i, idle = some i → i = h ∨ k.sched.idle = some i) (hq : q' = q ∨ q' = q ++ [h]) :
    Handoff own D { k with sched := s' } q' := by
  have hvacated : ∀ ep, ¬ k.BlockedOn h.slot.index ep := by
    intro ep hi
    have hnone := hp.vacant _ hvacant.2
    rw [hi] at hnone
    cases hnone
  have hfresh : ∀ {i table epCap}, s'.contexts i = .suspended (.recvAndYield table epCap) →
      i ≠ h.slot.index ∧ k.sched.contexts i = .suspended (.recvAndYield table epCap) := by
    intro i table epCap hcontext
    rw [hreg.contexts] at hcontext
    by_cases hi : i = h.slot.index
    · rw [hi, Function.update_self] at hcontext
      rw [hcontext] at hentry
      cases hentry
    · rw [Function.update_of_ne hi] at hcontext
      exact ⟨hi, hcontext⟩
  refine hh.scheduled rfl (fun i ep => ?_) (fun i ep hi => ?_) (fun c table epCap hcont => ?_)
    fun c hc table epCap hcontext => ?_
  · unfold BlockedOn
    dsimp only
    rw [hreg.taskStates]
    by_cases hi : i = h.slot.index
    · rw [hi, Function.update_self]
      exact ⟨(fun hcon => nomatch hcon), fun hcon => absurd hcon (hvacated ep)⟩
    · rw [Function.update_of_ne hi]
  · have hne : i ≠ h.slot.index := by
      rintro rfl
      exact hvacated ep hi
    dsimp only
    rw [hreg.contexts, Function.update_of_ne hne]
  · rcases hcont with ⟨hmem, hcontext⟩ | ⟨hcur, hrunning⟩
    · obtain ⟨hne, hcontext⟩ := hfresh hcontext
      left
      refine ⟨?_, hcontext⟩
      rcases hq with rfl | rfl
      · exact hmem
      · rcases List.mem_append.mp hmem with hold | hlast
        · exact hold
        · rw [List.mem_singleton.mp hlast] at hne
          exact absurd rfl hne
    · dsimp only at hcur
      rw [hreg.current] at hcur
      exact Or.inr ⟨hcur, hrunning⟩
  · obtain ⟨hne, hcontext⟩ := hfresh hcontext
    dsimp only at hc
    rw [hreg.idle] at hc
    rcases hidle c hc with rfl | hidle
    · exact hne rfl
    · exact hh.idle c hidle table epCap hcontext

end Dispatch

/-! ## Rendezvous -/

/-- The kernel after a delivery by a call on `table` has woken the task `w`. -/
def handedOver (k : Kernel) (table : TablePtr) (call : IpcCall)
    (r : SchedQueue taskArenaCapacity) (w : TaskHandle) : Kernel :=
  { k.withCall table call with sched := { k.sched with
    ready := r
    taskStates := Function.update k.sched.taskStates w.slot.index .ready } }

section Rendezvous

variable [Build] {transfer : Option CapHandle} {call : IpcCall}
  (hown : Function.Injective own) (hp : k.sched.Partitioned q ex)
  (hc : k.sched.current = some c)
include hown hp hc

omit [Build] hown hp hc in
/-- A task that continues then was about to before, or is the woken one. -/
theorem Continues.of_handedOver {table : TablePtr} {w : TaskHandle} {call' : Suspended}
    (hcont : (k.handedOver table call r w).Continues (q ++ [w]) h call')
    (hrunning : k.core.running = .task) : (k.Continues q h call' ∧ h ∈ q) ∨
      (h = w ∧ k.sched.contexts w.slot.index = .suspended call') := by
  rcases hcont with ⟨hmem, hcontext⟩ | ⟨-, hresuming⟩
  · rcases List.mem_append.mp hmem with hq | hlast
    · exact Or.inl ⟨Or.inl ⟨hq, hcontext⟩, hq⟩
    · obtain rfl := List.mem_singleton.mp hlast
      exact Or.inr ⟨rfl, hcontext⟩
  · exact absurd (hrunning.symm.trans hresuming) (by simp)

omit [Build] in
/-- A task that collects then was about to before, or is the woken one. -/
theorem Collecting.of_handedOver {w : TaskHandle} {e ep' : EndpointHandle} {epCap' : CapHandle}
    (hcoll : Collecting own (k.handedOver (own c.slot.index) call r w) (q ++ [w]) h e)
    (hrunning : k.core.running = .task) (hblocked : k.BlockedOn w.slot.index ep')
    (hcontext : k.sched.contexts w.slot.index =
      .suspended (.recvAndYield (own w.slot.index) epCap'))
    (hcollects : Targets (k.ipc.tables (own w.slot.index)) epCap' .recv ep') :
    Collecting own k q h e ∨ (h = w ∧ e = ep') := by
  obtain ⟨epCap₁, hcont, htarget₁⟩ := hcoll
  rcases hcont.of_handedOver hrunning with ⟨hcont, hq⟩ | ⟨rfl, hcontext₁⟩
  · replace htarget₁ := tables_of_queued hown hp hc hq _ ▸ htarget₁
    exact Or.inl ⟨epCap₁, hcont, htarget₁⟩
  · replace htarget₁ := tables_of_blocked hown hp hc hblocked _ ▸ htarget₁
    rw [hcontext] at hcontext₁
    cases hcontext₁
    exact Or.inr ⟨rfl, htarget₁.unique hcollects⟩

/-- A delivery hands the message to the only task that was blocked. -/
theorem Handoff.delivers (hh : Handoff own D k q) (hrunning : k.core.running = .task)
    {s' : Scheduler} (htarget : Targets (k.ipc.tables (own c.slot.index)) epCap .send ep)
    (hend : SendEnd (k.ipc.call (own c.slot.index)) epCap msg transfer (.ok .delivered call))
    (hunblocks : Unblocks k.sched q ep s' q')
    (hD : ∀ i, (∃ ep, k.BlockedOn i ep) → s'.taskStates i = .ready → D i msg) :
    Handoff own D { k.withCall (own c.slot.index) call with sched := s' } q' := by
  have hwaiters := fun e => (hh.waiters e).delivered htarget hend hunblocks
  cases hend with
  | @delivered _ owned t' htarget' hlive hstate _ _ =>
    cases htarget.unique htarget'
    have hwaiting : k.ipc.queues.effective ep = .recvWaiting := hstate
    obtain ⟨w, hw⟩ := hh.awaited ep hlive hwaiting
    cases hunblocks with
    | nobody hnobody => exact absurd hw (hnobody w)
    | @woken i w r hblocked hhandle hr =>
      obtain ⟨rfl, -⟩ := hp.handles i w hhandle
      obtain ⟨epCap', hcontext, hcollects⟩ := hh.blocked _ ep hblocked
      have hfull : ∀ {e msg cap}, k.ipc.queues.effective e = .recvComplete msg cap → e ≠ ep := by
        rintro e msg cap hcomplete rfl
        exact absurd (hcomplete.symm.trans hwaiting) (by simp)
      have hcoll : ∀ {h e}, Collecting own (k.handedOver (own c.slot.index) ⟨k.ipc.epArena,
            k.ipc.queues.put ep (.recvComplete msg owned), t'⟩ r w) (q ++ [w]) h e →
          (Collecting own k q h e ∧ e ≠ ep) ∨ (h = w ∧ e = ep) := by
        intro h e hcoll
        rcases hcoll.of_handedOver hown hp hc hrunning hblocked hcontext hcollects with
          hcoll | hlast
        · obtain ⟨-, msg, cap, hcomplete⟩ := hh.complete hcoll
          exact Or.inl ⟨hcoll, hfull hcomplete⟩
        · exact Or.inr hlast
      refine ⟨hwaiters, fun i e hi => ?_, fun e hlive' hstate' => ?_,
        fun h table epCap₁ hcont => ?_, fun h epCap₁ hcont => ?_, fun h h' e hh₁ hh₂ => ?_,
        hh.idle⟩
      · have hi' := (Unblocks.woken hblocked hhandle hr).blocked_before (hh.waiters e) hi
        have htables := tables_of_blocked hown hp hc hi'.1 (⟨k.ipc.epArena,
          k.ipc.queues.put ep (.recvComplete msg owned), t'⟩ : IpcCall)
        obtain ⟨epCap₁, hcontext₁, htarget₁⟩ := hh.blocked i e hi'.1
        exact ⟨epCap₁, hcontext₁, htables ▸ htarget₁⟩
      · have hne : e ≠ ep := by
          rintro rfl
          exact absurd (effective_put.symm.trans hstate') (by simp)
        obtain ⟨i, hi⟩ := hh.awaited e hlive'
          ((effective_put_other hlive hlive' hne).symm.trans hstate')
        have hiw : i ≠ w.slot.index := by
          rintro rfl
          exact hne (TaskState.blocked.inj (hi.symm.trans hblocked))
        exact ⟨i, (Function.update_of_ne hiw _ _).trans hi⟩
      · rcases hcont.of_handedOver hrunning with ⟨hcont, -⟩ | ⟨rfl, hcontext₁⟩
        · exact hh.private_table h table epCap₁ hcont
        · rw [hcontext] at hcontext₁
          cases hcontext₁
          rfl
      · rcases hcont.of_handedOver hrunning with ⟨hcont, hq⟩ | ⟨rfl, hcontext₁⟩
        · obtain ⟨e, msg₁, cap, htarget₁, hlive', hcomplete, hd⟩ := hh.woken h epCap₁ hcont
          have htables := tables_of_queued hown hp hc hq (⟨k.ipc.epArena,
            k.ipc.queues.put ep (.recvComplete msg owned), t'⟩ : IpcCall)
          exact ⟨e, msg₁, cap, htables ▸ htarget₁, hlive',
            (effective_put_other hlive hlive' (hfull hcomplete)).trans hcomplete, hd⟩
        · have htables := tables_of_blocked hown hp hc hblocked (⟨k.ipc.epArena,
            k.ipc.queues.put ep (.recvComplete msg owned), t'⟩ : IpcCall)
          rw [hcontext] at hcontext₁
          cases hcontext₁
          exact ⟨ep, msg, owned, htables ▸ hcollects, hlive, effective_put,
            hD _ ⟨ep, hblocked⟩ (Function.update_self ..)⟩
      · rcases hcoll hh₁ with ⟨hcoll₁, hne₁⟩ | ⟨rfl, he₁⟩ <;>
          rcases hcoll hh₂ with ⟨hcoll₂, hne₂⟩ | ⟨rfl, he₂⟩
        · exact hh.apart h h' e hcoll₁ hcoll₂
        · exact absurd he₂ hne₁
        · exact absurd he₁ hne₂
        · rfl

omit [Build] hown in
/-- A task that blocks is the only one to be handed the next message. -/
theorem Handoff.blocks (hh : Handoff own D k q) (hidle : k.sched.idle ≠ some c)
    {rest : List TaskHandle} {r : SchedQueue taskArenaCapacity}
    (htarget : Targets (k.ipc.tables (own c.slot.index)) epCap .recv ep)
    (hend : RecvEnd (k.ipc.call (own c.slot.index)) epCap (.ok .pending call))
    (hpick : Picks k.sched.idle q n rest) (hne : n ≠ c) :
    Handoff own D ((k.withCall (own c.slot.index) call).blockedOn r c n ep
      (.recvAndYield (own c.slot.index) epCap)) rest := by
  have hwaiters : ∀ e, ((k.withCall (own c.slot.index) call).blockedOn r c n ep
      (.recvAndYield (own c.slot.index) epCap)).Waiters e :=
    fun e => (hh.waiters e).blocked htarget hend
  cases hend with
  | registered htarget' hlive hstate =>
    cases htarget.unique htarget'
    have hwas : k.ipc.queues.effective ep = .idle := hstate
    have htables : (k.withCall (own c.slot.index) { k.ipc.call (own c.slot.index) with
        queues := k.ipc.queues.put ep .recvWaiting }).ipc.tables = k.ipc.tables :=
      endCall_tables_same rfl
    have hcontinues : ∀ {h table epCap₁},
        ((k.withCall (own c.slot.index) { k.ipc.call (own c.slot.index) with
          queues := k.ipc.queues.put ep .recvWaiting }).blockedOn r c n ep
            (.recvAndYield (own c.slot.index) epCap)).Continues rest h
              (.recvAndYield table epCap₁) →
        k.Continues q h (.recvAndYield table epCap₁) := by
      intro h table epCap₁ hcont
      rcases continues_switched rfl hcont with ⟨hrest, -, hcontext⟩ | ⟨hrest, hindex, -⟩ |
        ⟨rfl, hcontext⟩
      · exact continues_of_picks hp hh hpick (Or.inl hrest) hcontext
      · have hq := (hp.picked hpick).2.2.2.2 h hrest
        exact absurd hindex (ne_current_of_queued hp hc hq)
      · exact continues_of_picks hp hh hpick (Or.inr rfl) hcontext
    refine ⟨hwaiters, fun i e hi => ?_, fun e hlive' hstate' => ?_,
      fun h table epCap₁ hcont => hh.private_table h table epCap₁ (hcontinues hcont),
      fun h epCap₁ hcont => ?_, fun h h' e hcoll hcoll' => ?_, fun h hh' => ?_⟩
    · change Function.update k.sched.taskStates c.slot.index (.blocked ep) i = .blocked e at hi
      by_cases hic : i = c.slot.index
      · subst hic
        rw [Function.update_self] at hi
        cases hi
        exact ⟨epCap, Function.update_self .., htables ▸ htarget⟩
      · rw [Function.update_of_ne hic] at hi
        obtain ⟨epCap₁, hcontext, htarget₁⟩ := hh.blocked i e hi
        exact ⟨epCap₁, (Function.update_of_ne hic _ _).trans hcontext, htables ▸ htarget₁⟩
    · by_cases he : e = ep
      · exact ⟨c.slot.index, he ▸ Function.update_self ..⟩
      · obtain ⟨i, hi⟩ := hh.awaited e hlive'
          ((effective_put_other hlive hlive' he).symm.trans hstate')
        have hic : i ≠ c.slot.index := ne_current_of_blocked hp hc hi
        exact ⟨i, (Function.update_of_ne hic _ _).trans hi⟩
    · obtain ⟨e, msg₁, cap, htarget₁, hlive', hcomplete, hd⟩ := hh.woken h epCap₁ (hcontinues hcont)
      have he : e ≠ ep := by
        rintro rfl
        exact absurd (hcomplete.symm.trans hwas) (by simp)
      exact ⟨e, msg₁, cap, htables ▸ htarget₁, hlive',
        (effective_put_other hlive hlive' he).trans hcomplete, hd⟩
    · have hback : ∀ {h}, Collecting own ((k.withCall (own c.slot.index)
          { k.ipc.call (own c.slot.index) with
            queues := k.ipc.queues.put ep .recvWaiting }).blockedOn r c n ep
              (.recvAndYield (own c.slot.index) epCap)) rest h e → Collecting own k q h e := by
        intro h hcoll
        obtain ⟨epCap₁, hcont, htarget₁⟩ := hcoll
        exact ⟨epCap₁, hcontinues hcont, htables ▸ htarget₁⟩
      exact hh.apart h h' e (hback hcoll) (hback hcoll')
    · apply idle_switched (hh.idle h hh')
      intro hindex
      have heq := (hp.idle h hh').1.1.unique (hp.current c hc).1.1 hindex
      exact absurd (heq ▸ hh') hidle

end Rendezvous

/-! ## One operation -/

section Step

variable [Build] {op : KernelOp} {reply : Except SchedError KernelReply}

omit [Build] in
/-- Entering the restored context ends what it continued with. -/
theorem Handoff.resumes (hh : Handoff own D k q) : Handoff own D k.resumed q := by
  refine hh.scheduled rfl (fun i ep => Iff.rfl) (fun i ep hi => rfl)
    (fun h table epCap hcont => ?_) hh.idle
  rcases hcont with hq | ⟨-, hrunning⟩
  · exact Or.inl hq
  · cases hrunning

/-- A task that is resumed to collect has its message in the endpoint. -/
theorem Handoff.resuming (hinv : k.Inv q ex) (hh : Handoff own D k q)
    (hrunning : k.core.running = .resuming (.suspended (.recvAndYield table epCap))) :
    ∃ c ep msg cap, k.sched.current = some c ∧ table = own c.slot.index ∧
      Collecting own k q c ep ∧ Targets (k.ipc.tables (own c.slot.index)) epCap .recv ep ∧
      Live k.ipc.epArena ep ∧ k.ipc.queues.effective ep = .recvComplete msg cap ∧
      D c.slot.index msg := by
  have hcurrent : k.sched.current ≠ none := by
    intro hnone
    rw [hinv.current_none.mpr hnone] at hrunning
    cases hrunning
  obtain ⟨c, hc⟩ := Option.ne_none_iff_exists'.mp hcurrent
  have hcont : k.Continues q c (.recvAndYield table epCap) := Or.inr ⟨hc, hrunning⟩
  obtain rfl := hh.private_table c table epCap hcont
  obtain ⟨ep, msg, cap, htarget, hlive, hstate, hd⟩ := hh.woken c epCap hcont
  exact ⟨c, ep, msg, cap, hc, rfl, ⟨epCap, hcont, htarget⟩, htarget, hlive, hstate, hd⟩

omit [Build] in
/-- Nobody collects from an endpoint without a delivered message. -/
theorem Handoff.free_of_state (hh : Handoff own D k q)
    (hstate : ∀ msg cap, k.ipc.queues.effective ep ≠ .recvComplete msg cap) (h : TaskHandle) :
    ¬ Collecting own k q h ep := by
  intro hcoll
  obtain ⟨-, msg, cap, hcomplete⟩ := hh.complete hcoll
  exact hstate msg cap hcomplete

/-- What collecting returns: the message that was delivered. -/
theorem Handoff.collects (hinv : k.Inv q ex) (hh : Handoff own D k q)
    (hroom : ∀ c, k.sched.current = some c → ¬ (k.ipc.tables (own c.slot.index)).isFull)
    (hrunning : k.core.running = .resuming (.suspended (.recvAndYield table epCap)))
    {r : Result IpcCall IpcError RecvOutcome} (hend : RecvEnd (k.ipc.call table) epCap r) :
    ∃ c ep msg cap xfer call, k.sched.current = some c ∧ table = own c.slot.index ∧
      Collecting own k q c ep ∧ k.ipc.queues.effective ep = .recvComplete msg cap ∧
      D c.slot.index msg ∧ r = .ok (.received msg xfer) call := by
  obtain ⟨c, ep, msg, cap, hc, rfl, hcoll, htarget, hlive, hstate, hd⟩ :=
    hh.resuming hinv hrunning
  refine ⟨c, ep, msg, cap, ?_⟩
  cases hend with
  | refused hq hwhy =>
    rcases hwhy ep htarget hlive with ⟨-, hfull⟩ | hwaiting
    · exact absurd hfull (hroom c hc)
    · exact absurd (hstate.symm.trans hwaiting) (by simp)
  | undrained hlive' hun => exact absurd hun (hinv.sound.owned.not_undrained hlive')
  | @received _ msg' _ xfer t' htarget' _ hheld _ =>
    cases htarget.unique htarget'
    have hmsg : some (msg, cap) = some (msg', _) :=
      (congrArg EndpointState.held hstate).symm.trans hheld
    cases hmsg
    exact ⟨xfer, _, hc, rfl, hcoll, hstate, hd, rfl⟩
  | registered htarget' _ hidle =>
    cases htarget.unique htarget'
    exact absurd (hstate.symm.trans hidle) (by simp)

theorem Effect.handoff (hown : Function.Injective own) (hinv : k.Inv q ex)
    (hh : Handoff own D k q) (heffect : Effect k q ex op reply k' q' ex')
    (henabled : op.Enabled k.core.running)
    (hprivate : (⟨k, op, reply, k'⟩ : KernelEvent).Private own)
    (hroomy : (⟨k, op, reply, k'⟩ : KernelEvent).Roomy own)
    (huncontended : (⟨k, op, reply, k'⟩ : KernelEvent).Uncontended)
    (hD : ∀ i msg, (⟨k, op, reply, k'⟩ : KernelEvent).Wakes i →
      (⟨k, op, reply, k'⟩ : KernelEvent).Sends msg → D i msg) :
    Handoff own D k' q' := by
  have hp := hinv.part
  cases heffect with
  | joined _ hvacant hreg hentry _ =>
    exact hh.registers hp hvacant hreg hentry (fun i hi => Or.inr hi) (Or.inr rfl)
  | idled _ hvacant _ hreg hentry =>
    exact hh.registers hp hvacant hreg hentry
      (fun i hi => Or.inl (Option.some_injective _ hi).symm) (Or.inl rfl)
  | started _ hpick _ => exact hh.dispatches hp hpick
  | exited _ _ hpick _ => exact hh.dispatches hp hpick
  | continued => exact hh.resumes
  | collected hrunning hend =>
    obtain ⟨c, ep, msg, cap, hc, rfl, hcoll, htarget, hlive, hstate, -⟩ :=
      hh.resuming hinv hrunning
    have hfree : ∀ h, ¬ Collecting own k.resumed q h ep := by
      intro h hcoll'
      obtain ⟨epCap', hcont, htarget⟩ := hcoll'
      rcases hcont with hq | ⟨-, hrunning'⟩
      · have heq := hh.apart h c ep ⟨epCap', Or.inl hq, htarget⟩ hcoll
        exact (hp.current c hc).2.1 (heq ▸ hq.1)
      · cases hrunning'
    cases hend with
    | @received ep' _ _ _ t' htarget' _ _ _ =>
      cases htarget.unique htarget'
      exact Handoff.calls (k := k.resumed) hown hp hc hh.resumes rfl hlive
        (ne_of_eq_of_ne hstate (by simp)) hfree (by simp) t'
  | missed hrunning hend =>
    obtain ⟨c, ep, msg, cap, xfer, call, -, -, -, -, -, hr⟩ :=
      hh.collects hinv hroomy hrunning hend
    cases hr
  | collectRefused hrunning hend =>
    obtain ⟨c, ep, msg, cap, xfer, call, -, -, -, -, -, hr⟩ :=
      hh.collects hinv hroomy hrunning hend
    cases hr
  | yielded hc hyields => exact hh.yields hp hc hyields (by simp)
  | refused _ hq => exact hh.settled hq
  | enqueued hend =>
    obtain ⟨c, hc⟩ := Option.ne_none_iff_exists'.mp (hinv.current_of_task henabled)
    obtain rfl := hprivate _ rfl _ hc
    cases hend with
    | @enqueued ep _ _ _ hlive hstate _ _ =>
      exact hh.calls hown hp hc henabled hlive (ne_of_eq_of_ne hstate (by simp))
        (hh.free_of_state fun msg cap => ne_of_eq_of_ne hstate (by simp)) (by simp) _
  | delivered hc htarget hend hunblocks hyields =>
    obtain rfl := hprivate _ rfl _ hc
    obtain ⟨hstates, -⟩ := hyields.frame
    have hd := hh.delivers hown hp hc henabled htarget hend hunblocks fun i hblocked hready =>
      hD i _ ⟨hblocked, hstates ▸ hready⟩ ⟨_, _, _, rfl⟩
    exact hd.yields (hunblocks.partitioned hp) (hunblocks.current_eq.1.trans hc) hyields (by simp)
  | received hend =>
    obtain ⟨c, hc⟩ := Option.ne_none_iff_exists'.mp (hinv.current_of_task henabled)
    obtain rfl := hprivate _ rfl _ hc
    cases hend with
    | @received ep _ _ _ _ htarget hlive hheld _ =>
      refine hh.calls hown hp hc henabled hlive (fun hwaiting => ?_)
        (hh.free_of_state (huncontended.recv htarget)) (by simp) _
      have hnone := congrArg EndpointState.held hwaiting
      cases hheld.symm.trans hnone
  | blocked hc hidle htarget hend hpick hne _ =>
    obtain rfl := hprivate _ rfl _ hc
    exact hh.blocks hp hc hidle htarget hend hpick hne

/-- A resumed receive returns what was delivered. -/
theorem Effect.hands_over (hinv : k.Inv q ex) (hh : Handoff own D k q)
    (hroomy : (⟨k, .resume, reply, k'⟩ : KernelEvent).Roomy own)
    (heffect : Effect k q ex .resume reply k' q' ex')
    (hrunning : k.core.running = .resuming (.suspended (.recvAndYield table epCap))) :
    ∃ c msg cap, k.sched.current = some c ∧ reply = .ok (.received (.received msg cap)) ∧
      D c.slot.index msg := by
  cases heffect with
  | joined hop => cases hop
  | idled hop => cases hop
  | refused hop => cases hop
  | continued hrunning' hentry =>
    rw [hrunning] at hrunning'
    cases hrunning'
    cases hentry
  | collected hrunning' hend =>
    obtain ⟨c, ep, msg, cap, xfer, call, hc, -, -, -, hd, hr⟩ :=
      hh.collects hinv hroomy hrunning' hend
    cases hr
    exact ⟨c, _, _, hc, rfl, hd⟩
  | missed hrunning' hend =>
    obtain ⟨c, ep, msg, cap, xfer, call, -, -, -, -, -, hr⟩ :=
      hh.collects hinv hroomy hrunning' hend
    cases hr
  | collectRefused hrunning' hend =>
    obtain ⟨c, ep, msg, cap, xfer, call, -, -, -, -, -, hr⟩ :=
      hh.collects hinv hroomy hrunning' hend
    cases hr

theorem Handoff.step {past : List KernelEvent} {ev : KernelEvent} (hown : Function.Injective own)
    (hinv : k.Inv q ex) (hh : Handoff own (Delivered past) k q) (hstep : KernelStep k ev k')
    (hprivate : ev.Private own) (hroomy : ev.Roomy own) (huncontended : ev.Uncontended) :
    ev.HandsOver past ∧
      ∃ q' ex', k'.Inv q' ex' ∧ Handoff own (Delivered (past ++ [ev])) k' q' := by
  obtain ⟨q', ex', heffect⟩ := hinv.effect hstep
  obtain ⟨before, op, reply, after⟩ := ev
  obtain ⟨rfl, rfl, henabled, -, -⟩ := hstep
  dsimp only at henabled heffect
  refine ⟨?_, q', ex', heffect.inv hinv, ?_⟩
  · intro table epCap hop hrunning
    dsimp only at hop hrunning
    subst hop
    exact Effect.hands_over hinv hh hroomy heffect hrunning
  · have hmono : Handoff own (Delivered (past ++ [⟨before, op, reply, after⟩])) before q := by
      refine hh.mono fun h call msg hcont hd => hd.snoc fun hwakes => ?_
      -- who is about to continue is ready, so was not woken now
      obtain ⟨⟨ep, hblocked⟩, -⟩ := hwakes
      have hready := (hcont.runnable hinv.part).2
      exact absurd (hready.symm.trans hblocked) (by simp)
    apply heffect.handoff hown hinv hmono henabled hprivate hroomy huncontended
    exact fun i msg hwakes hsends => .last hwakes hsends

end Step

/-! ## Whole runs -/

section Runs

variable [Build] {ipc : IpcSystem TablePtr}

omit [Build] in
/-- Before the first dispatch nobody waits, when every endpoint is idle. -/
theorem boot_handoff (hidle : ∀ ep, Live ipc.epArena ep → ipc.queues.effective ep = .idle) :
    Handoff own D (boot ipc) [] where
  waiters ep := boot_waiters ipc
  blocked i ep hi := nomatch hi
  awaited ep hlive hstate := absurd ((hidle ep hlive).symm.trans hstate) (by simp)
  private_table h table epCap hcont := by
    rcases hcont with ⟨hmem, -⟩ | ⟨hcur, -⟩
    · cases hmem
    · cases hcur
  woken h epCap hcont := by
    rcases hcont with ⟨hmem, -⟩ | ⟨hcur, -⟩
    · cases hmem
    · cases hcur
  apart h h' ep hcoll := by
    obtain ⟨epCap, ⟨hmem, -⟩ | ⟨hcur, -⟩, -⟩ := hcoll
    · cases hmem
    · cases hcur
  idle h hidle := nomatch hidle

omit [Build] in
theorem Handoff.rendezvous (hh : Handoff own D k q) : k.Rendezvous := by
  intro ep hlive
  constructor
  · intro hwaiting
    obtain ⟨i, hi⟩ := hh.awaited ep hlive hwaiting
    exact ⟨i, hi, fun j hj => (hh.waiters ep).alone j i hj hi⟩
  · intro hblocked
    obtain ⟨i, hi, -⟩ := hblocked
    exact (hh.waiters ep).waiting i hi

/-- In a run in which every task uses its own table, has room for a capability and never
receives on an endpoint with an uncollected delivery, a receiver that blocked is handed
the message of the send that woke it, and an endpoint waits for a receiver exactly when
one task is blocked on it. -/
theorem delivery_of_run {setup : List (IpcSystem.Event TablePtr)} {evs : List KernelEvent}
    (hown : Function.Injective own) (hsetup : Run IpcSystem.Step IpcSystem.boot setup ipc)
    (hdrained : ∀ ev ∈ setup, Drained ev)
    (hidle : ∀ ep, Live ipc.epArena ep → ipc.queues.effective ep = .idle)
    (hrun : Run KernelStep (boot ipc) evs k) (hprivate : ∀ ev ∈ evs, ev.Private own)
    (hroomy : ∀ ev ∈ evs, ev.Roomy own) (huncontended : ∀ ev ∈ evs, ev.Uncontended) :
    k.Rendezvous ∧ ∀ past ev rest, evs = past ++ ev :: rest → ev.HandsOver past := by
  have hsound := boot_sound.run hsetup hdrained
  have hsteps := hrun.with_events fun ev hev =>
    And.intro (hprivate ev hev) (And.intro (hroomy ev hev) (huncontended ev hev))
  have hreached : ∀ {past k}, Run (fun k ev k' => (ev.Private own ∧ ev.Roomy own ∧
      ev.Uncontended) ∧ KernelStep k ev k') (boot ipc) past k →
      ∃ q ex, k.Inv q ex ∧ Handoff own (Delivered past) k q := by
    intro past k hpast
    refine hpast.history (I := fun past k => ∃ q ex, k.Inv q ex ∧
      Handoff own (Delivered past) k q) ⟨[], [], boot_inv hsound, boot_handoff hidle⟩ ?_
    intro past k ev k' hk hstep
    obtain ⟨q, ex, hinv, hh⟩ := hk
    obtain ⟨⟨hpriv, hroom, huncont⟩, hstep⟩ := hstep
    exact (hh.step hown hinv hstep hpriv hroom huncont).2
  obtain ⟨q, ex, -, hh⟩ := hreached hsteps
  refine ⟨hh.rendezvous, fun past ev rest hsplit => ?_⟩
  rw [hsplit] at hsteps
  obtain ⟨k₁, hpast, hrest⟩ := hsteps.split
  obtain ⟨q, ex, hinv, hh⟩ := hreached hpast
  cases hrest with
  | cons hstep _ =>
    obtain ⟨⟨hpriv, hroom, huncont⟩, hstep⟩ := hstep
    exact (hh.step hown hinv hstep hpriv hroom huncont).1

end Runs

/-! ## Three tasks on one endpoint -/

section Threefold

/-- One endpoint, on which the tables `1` and `3` may receive and `2` may send. -/
def oneEndpoint : IpcSystem TablePtr :=
  IpcSystem.boot.performed (.createEndpoint ⟨7⟩)

def oneReceiver : IpcSystem TablePtr :=
  oneEndpoint.performed (.table 1 (.insertRoot ⟨.recv, .endpoint ⟨⟨0, 0⟩⟩⟩))

def receiverAndSender : IpcSystem TablePtr :=
  oneReceiver.performed (.table 2 (.insertRoot ⟨.send, .endpoint ⟨⟨0, 0⟩⟩⟩))

def twoReceivers : IpcSystem TablePtr :=
  receiverAndSender.performed (.table 3 (.insertRoot ⟨.recv, .endpoint ⟨⟨0, 0⟩⟩⟩))

theorem twoReceivers_run : ∃ setup, @Run _ _ (@IpcSystem.Step TablePtr _ ⟨true⟩)
    IpcSystem.boot setup twoReceivers ∧ ∀ ev ∈ setup, Drained ev := by
  have hendpoint :=
    IpcSystem.performed_step (IpcSystem.boot : IpcSystem TablePtr) (.createEndpoint ⟨7⟩)
    (.endpoint ⟨⟨0, 0⟩⟩) (by with_unfolding_all rfl)
  have hreceiver := IpcSystem.performed_step oneEndpoint
    (.table 1 (.insertRoot ⟨.recv, .endpoint ⟨⟨0, 0⟩⟩⟩)) (.table (.handle ⟨0, 0⟩))
    (by with_unfolding_all rfl)
  have hsender := IpcSystem.performed_step oneReceiver
    (.table 2 (.insertRoot ⟨.send, .endpoint ⟨⟨0, 0⟩⟩⟩)) (.table (.handle ⟨0, 0⟩))
    (by with_unfolding_all rfl)
  have hsecond := IpcSystem.performed_step receiverAndSender
    (.table 3 (.insertRoot ⟨.recv, .endpoint ⟨⟨0, 0⟩⟩⟩)) (.table (.handle ⟨0, 0⟩))
    (by with_unfolding_all rfl)
  exact ⟨_, .cons hendpoint (.cons hreceiver (.cons hsender (.single hsecond))), by simp [Drained]⟩

/-- The table of each task. -/
def ownTable (i : Index) : TablePtr := i.toNat + 1

theorem ownTable_injective : Function.Injective ownTable :=
  fun _ _ heq => BitVec.eq_of_toNat_eq (Nat.add_right_cancel heq)

theorem twoReceivers_idle (ep : EndpointHandle) : twoReceivers.queues.effective ep = .idle := by
  have hqueues : twoReceivers.queues = .new := by with_unfolding_all rfl
  rw [hqueues]
  unfold effective
  split <;> rfl

/-- The first task waits, the second sends, and the third runs before the first collects. -/
def sentOps : List KernelOp :=
  [.addTask ⟨⟨0, 0⟩⟩ ⟨⟨0, 0⟩⟩ 4096 8192, .addTask ⟨⟨1, 0⟩⟩ ⟨⟨0, 0⟩⟩ 4096 16384,
    .addTask ⟨⟨2, 0⟩⟩ ⟨⟨0, 0⟩⟩ 4096 24576, .start, .resume, .recvAndYield 1 ⟨0, 0⟩, .resume,
    .sendAndYield 2 ⟨0, 0⟩ ⟨1, 2, 3, 4⟩ none, .resume]

/-- The third task yields, or first receives on the endpoint. -/
def collectedOps : List KernelOp := sentOps ++ [.yieldNow, .resume]

def stolenOps : List KernelOp := sentOps ++ [.recvAndYield 3 ⟨0, 0⟩, .yieldNow, .resume]

theorem collectedOps_fair : ∀ ev ∈ @trace debugBuild (boot twoReceivers) collectedOps,
    ev.Private ownTable ∧ ev.Roomy ownTable ∧ ev.Uncontended := by
  decide +kernel

theorem stolenOps_fair : ∀ ev ∈ @trace debugBuild (boot twoReceivers) stolenOps,
    ev.Private ownTable ∧ ev.Roomy ownTable := by
  decide +kernel

/-- The first task, woken before the third received, collects its message. -/
theorem delivery_of_run_collected :
    ((@trace debugBuild (boot twoReceivers) collectedOps).getLast?.map (·.reply)) =
      some (.ok (.received (.received ⟨1, 2, 3, 4⟩ none))) ∧
    (@afterTrace debugBuild (boot twoReceivers) collectedOps).Rendezvous := by
  let _ : Build := debugBuild
  have hreply : ((trace (boot twoReceivers) collectedOps).getLast?.map (·.reply)) =
      some (.ok (.received (.received ⟨1, 2, 3, 4⟩ none))) := by
    with_unfolding_all rfl
  obtain ⟨setup, hsetup, hdrained⟩ := twoReceivers_run
  have hfair := collectedOps_fair
  exact ⟨hreply, (delivery_of_run ownTable_injective hsetup hdrained
    (fun ep _ => twoReceivers_idle ep) (trace_run (boot twoReceivers) collectedOps)
    (fun ev hev => (hfair ev hev).1) (fun ev hev => (hfair ev hev).2.1)
    (fun ev hev => (hfair ev hev).2.2)).1⟩

/-- After the theft no task is blocked. -/
theorem stolenOps_none_blocked (i : Index) :
    ¬ (@afterTrace debugBuild (boot twoReceivers) stolenOps).BlockedOn i ⟨⟨0, 0⟩⟩ := by
  let _ : Build := debugBuild
  obtain ⟨setup, hsetup, hdrained⟩ := twoReceivers_run
  obtain ⟨q, hinv, -⟩ := inv_of_run (boot_sound.run hsetup hdrained)
    (trace_run (boot twoReceivers) stolenOps)
  have hslots : ∀ n < taskArenaCapacity, (afterTrace (boot twoReceivers) stolenOps).sched.taskStates
      (BitVec.ofNat 16 n) ≠ .blocked ⟨⟨0, 0⟩⟩ := by
    decide +kernel
  intro hi
  obtain ⟨-, -, -, -, -, hbound⟩ := hinv.part.blocked hi
  apply hslots i.toNat hbound
  rw [BitVec.ofNat_toNat, BitVec.setWidth_eq]
  exact hi

/-- The third task takes the message of the first: the first is resumed without one, and
leaves the endpoint waiting for a receiver although no task is blocked. -/
theorem delivery_stolen : ∃ (setup : List (IpcSystem.Event TablePtr)) (evs : List KernelEvent)
    (k : Kernel),
    @Run _ _ (@IpcSystem.Step TablePtr _ debugBuild) IpcSystem.boot setup twoReceivers ∧
    (∀ ev ∈ setup, Drained ev) ∧ (∀ ep, twoReceivers.queues.effective ep = .idle) ∧
    @Run _ _ (@KernelStep debugBuild) (boot twoReceivers) evs k ∧
    Function.Injective ownTable ∧ (∀ ev ∈ evs, ev.Private ownTable ∧ ev.Roomy ownTable) ∧
    (∃ past ev, evs = past ++ [ev] ∧ ¬ ev.HandsOver past ∧
      ev.reply = .error (.ipc .pendingAfterResume)) ∧ ¬ k.Rendezvous := by
  let _ : Build := debugBuild
  obtain ⟨setup, hsetup, hdrained⟩ := twoReceivers_run
  have hne : trace (boot twoReceivers) stolenOps ≠ [] := by
    intro hnil
    have hlength : (trace (boot twoReceivers) stolenOps).length = 12 := by with_unfolding_all rfl
    rw [hnil] at hlength
    cases hlength
  have hlast := (List.dropLast_append_getLast hne).symm
  have hreply : ((trace (boot twoReceivers) stolenOps).getLast hne).reply =
      .error (.ipc .pendingAfterResume) := by
    with_unfolding_all rfl
  refine ⟨setup, _, _, hsetup, hdrained, twoReceivers_idle, trace_run _ stolenOps,
    ownTable_injective, stolenOps_fair, ⟨_, _, hlast, fun hover => ?_, hreply⟩, fun hrend => ?_⟩
  · obtain ⟨c, msg, cap, -, hreply', -⟩ := hover 1 ⟨0, 0⟩ (by with_unfolding_all rfl)
      (by with_unfolding_all rfl)
    rw [hreply] at hreply'
    cases hreply'
  · have hlive : Live (afterTrace (boot twoReceivers) stolenOps).ipc.epArena ⟨⟨0, 0⟩⟩ := by
      with_unfolding_all rfl
    have hwaiting : (afterTrace (boot twoReceivers) stolenOps).ipc.queues.effective ⟨⟨0, 0⟩⟩ =
        .recvWaiting := by
      with_unfolding_all rfl
    obtain ⟨i, hi, -⟩ := (hrend _ hlive).mp hwaiting
    exact stolenOps_none_blocked i hi

end Threefold

end Kernel

end Tyrne
