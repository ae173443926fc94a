import Tyrne.Sched.Calls
import Tyrne.Sched.Delivery

/-!
# Failed bridge calls

A receive that fails undoes what it has done: the registration as a receiver and the
blocking of the caller. A send has nothing to undo, except where it is made while no task
is current: then it commits the message before it finds that it cannot yield.
-/

namespace Tyrne

open Scheduler IpcSystem IpcQueues

variable {k k' : Kernel} {q ex : List TaskHandle} {c : TaskHandle} {ep : EndpointHandle}
  {table : TablePtr} {epCap : CapHandle} {msg : Message} {transfer : Option CapHandle}

/-- Nothing that the kernel can tell apart has changed: the scheduler, the tables, and the
state of every live endpoint. -/
structure Kernel.Unchanged (k k' : Kernel) : Prop where
  sched : k'.sched = k.sched
  core : k'.core = k.core
  tables : k'.ipc.tables = k.ipc.tables
  epArena : k'.ipc.epArena = k.ipc.epArena
  queues : Agree k.ipc.epArena k.ipc.queues k'.ipc.queues

namespace Kernel

theorem unchanged_self (k : Kernel) : k.Unchanged k := ⟨rfl, rfl, rfl, rfl, fun _ _ => rfl⟩

theorem unchanged_refused {queues : IpcQueues}
    (hq : Refused k.ipc.epArena k.ipc.queues queues) : k.Unchanged (k.withQueues queues) :=
  ⟨rfl, rfl, rfl, rfl, hq.agree⟩

variable [Build]

/-! ## Switches -/

omit [Build] in
theorem dequeue_ends {N : ℕ} : Prog.Triple (fun _ => True)
    (SchedQueue.dequeue : Prog (SchedQueue N) SchedError _) (fun _ _ => True)
    fun _ _ => False := by
  unfold SchedQueue.dequeue
  refine Prog.Triple.get_bind fun q _ => Prog.Triple.ite (fun _ => ?_) fun _ => ?_
  · exact Prog.Triple.pure fun _ _ => trivial
  refine Prog.Triple.ite (fun _ => ?_) fun _ => Prog.Triple.panic
  refine Prog.Triple.bind (Q := fun _ _ => True) (Prog.Triple.modify fun _ _ => trivial) fun _ => ?_
  exact Prog.Triple.pure fun _ _ => trivial

omit [Build] in
theorem dispatchSome_ends {i : Index} {n : TaskHandle} : Prog.Triple (fun _ => True)
    (do return some (← dispatchFrom i n) : SchedM (Option Switch)) (fun switch _ => switch ≠ none)
    fun _ _ => False := by
  have hdispatch : Prog.Triple (fun _ : Scheduler => True) (dispatchFrom i n)
      (fun _ _ => True) fun _ _ => False := by
    unfold dispatchFrom
    refine Prog.Triple.bind (Q := fun _ _ => True) (writeCell_triple fun _ _ => trivial)
      fun _ => ?_
    refine Prog.Triple.bind (Q := fun _ _ => True) (Prog.Triple.modify fun _ _ => trivial)
      fun _ => ?_
    refine Prog.Triple.bind (readCell_triple (P := fun _ => True)) fun _ => ?_
    refine (readCell_triple (P := fun _ => True)).pre (fun _ _ => trivial) |>.bind fun _ => ?_
    exact Prog.Triple.pure fun _ _ => trivial
  exact hdispatch.bind fun _ => Prog.Triple.pure fun _ _ => Option.some_ne_none _

theorem switchTo_ends (switch : Switch) (call : Suspended) :
    Prog.Triple (fun _ => True) (switchTo switch call) (fun _ _ => True) fun _ _ => False := by
  have hsched : ∀ {α : Type} {m : SchedM α},
      Prog.Triple (fun _ => True) m (fun _ _ => True) (fun _ _ => False) →
      Prog.Triple (fun _ => True) (onSched m) (fun _ _ => True) fun _ _ => False := fun hm =>
    hm.zoom (fun _ _ => trivial) (fun _ _ _ _ _ => trivial) fun _ _ _ _ hcon => hcon
  unfold switchTo
  refine Prog.Triple.bind (Q := fun _ _ => True) debugAssert_triple fun _ => ?_
  refine Prog.Triple.bind (Q := fun _ _ => True) (Prog.Triple.modify fun _ _ => trivial)
    fun _ => ?_
  refine (hsched (readCell_triple.post (fun _ _ _ => trivial) fun _ _ hcon => hcon)).bind
    fun _ => ?_
  refine (hsched (writeCell_triple fun _ _ => trivial)).bind fun _ => ?_
  exact Prog.Triple.modify fun _ _ => trivial

/-! ## Sends -/

theorem yieldNow_noCurrent (hnone : k.sched.current = none) (call : Suspended) :
    (yieldNow call).run k = .err .noCurrentTask k := by
  have hprelude : yieldPrelude.run k.sched = .err .noCurrentTask k.sched := by
    unfold yieldPrelude
    rw [Prog.get_bind_run, hnone]
    rfl
  have hsched : (onSched yieldPrelude).run k = .err .noCurrentTask k := Prog.zoom_err hprelude
  unfold yieldNow
  exact Prog.bind_err hsched

/-- Where no task is blocked on `ep`, nothing is woken. -/
theorem unblockScan_none {s : Scheduler} (hnone : ∀ i, s.taskStates i ≠ .blocked ep)
    {idxs : List Index} (hidxs : ∀ i ∈ idxs, i.toNat < taskArenaCapacity) :
    (unblockScan ep idxs).run s = .ok () s := by
  induction idxs with
  | nil => rfl
  | cons i rest ih =>
    have hstate : (readCell taskArenaCapacity taskStates i : SchedM _).run s =
        .ok (s.taskStates i) s := if_pos (hidxs i List.mem_cons_self)
    unfold unblockScan
    rw [Prog.bind_ok hstate, if_neg (hnone i)]
    exact ih fun j hj => hidxs j (List.mem_cons_of_mem i hj)

/-- Without a current task, a delivered send fails after it has stored its message. -/
theorem wakeAndYield_noCurrent (hnone : k.sched.current = none)
    (hawake : ∀ i, k.sched.taskStates i ≠ .blocked ep) (outcome : SendOutcome) :
    (wakeAndYield ep outcome).run k = .err .noCurrentTask k := by
  have hwake : (unblockReceiverOn ep).run k.sched = .ok () k.sched :=
    unblockScan_none hawake fun _ hi => mem_scanned.mp hi
  unfold wakeAndYield
  rw [Prog.bind_ok (onSched_ok hwake)]
  exact Prog.bind_err (yieldNow_noCurrent hnone (.sendAndYield outcome))

omit [Build] in
theorem tryEnqueue_current {E : SchedError → Scheduler → Prop} (h : TaskHandle) {message : String} :
    Prog.Triple (fun s => s.current = some c) ((tryEnqueue h).expect message : SchedM Unit)
      (fun _ s => s.current = some c) E := by
  have henqueue : (tryEnqueue h).Preserves fun s => s.current = some c :=
    Prog.Triple.any.zoom (P := fun _ => True) (fun _ _ => trivial) (fun _ _ _ hs _ => hs)
      fun _ _ _ hs _ => hs
  exact henqueue.expect

/-- Waking a receiver has no error, and leaves the running task. -/
theorem unblockScan_current (ep : EndpointHandle) (idxs : List Index) :
    Prog.Triple (fun s => s.current = some c) (unblockScan ep idxs)
      (fun _ s => s.current = some c) fun _ _ => False := by
  induction idxs with
  | nil => exact Prog.Triple.pure fun _ hs => hs
  | cons i rest ih =>
    unfold unblockScan
    refine (readCell_triple (P := fun s : Scheduler => s.current = some c)).bind fun state => ?_
    refine Prog.Triple.ite (fun _ => ?_) fun _ => ih.pre fun _ hs => hs.1
    refine Prog.Triple.bind (Q := fun _ (s : Scheduler) => s.current = some c)
      (readCell_triple.post (fun _ _ hs => hs.1.1) fun _ _ hcon => hcon) fun handle => ?_
    refine debugAssert_triple.bind fun _ => ?_
    cases handle with
    | none => exact ih
    | some h =>
      exact Prog.Triple.bind (Q := fun _ (s : Scheduler) => s.current = some c)
        (writeCell_triple fun _ hs => hs) fun _ => tryEnqueue_current h

omit [Build] in
/-- A yield of a running task has no error. -/
theorem yieldPrelude_current : Prog.Triple (fun s => s.current = some c) yieldPrelude
    (fun _ _ => True) fun _ _ => False := by
  unfold yieldPrelude
  refine Prog.Triple.get_bind fun s hs => ?_
  refine (Prog.Triple.okOr (Q := fun a t => a = c ∧ t.current = some c) ?_ ?_).bind fun a => ?_
  · rintro a t ha rfl
    exact ⟨Option.some.inj (ha.symm.trans hs), hs⟩
  · rintro t hnone rfl
    rw [hs] at hnone
    cases hnone
  -- what follows cannot fail in any state
  have hput : ∀ rest : SchedM (Option Switch),
      Prog.Triple (fun _ => True) rest (fun _ _ => True) (fun _ _ => False) →
      Prog.Triple (fun t => t.current = some c)
        (if decide (s.idle = some a) = true then rest else enqueueReady a >>= fun _ => rest :
          SchedM (Option Switch)) (fun _ _ => True) fun _ _ => False := fun rest hrest =>
    Prog.Triple.ite (fun _ => hrest.pre fun _ _ => trivial) fun _ =>
      (tryEnqueue_current a).bind fun _ => hrest.pre fun _ _ => trivial
  refine Prog.Triple.bind (Q := fun _ t => t.current = some c)
    (writeCell_triple fun _ ht => ht.2) fun _ => hput _ ?_
  have hdequeue : Prog.Triple (fun _ => True) dequeueReady (fun _ _ => True) fun _ _ => False :=
    dequeue_ends.zoom (fun _ _ => trivial) (fun _ _ _ _ _ => trivial)
      fun _ _ _ _ hcon => hcon
  have hdispatch : ∀ n, Prog.Triple (fun _ => True)
      (do return some (← dispatchFrom a.slot.index n) : SchedM (Option Switch))
      (fun _ _ => True) fun _ _ => False := fun n =>
    dispatchSome_ends.post (fun _ _ _ => trivial) fun _ _ hcon => hcon
  have hstay : Prog.Triple (fun _ => True) (pure none : SchedM (Option Switch)) (fun _ _ => True)
      fun _ _ => False := Prog.Triple.pure fun _ _ => trivial
  refine hdequeue.bind fun front => ?_
  intro t _
  rw [Prog.get_bind_run]
  cases front with
  | some n => exact Prog.Triple.ite (fun _ => hdispatch n) (fun _ => hstay) t trivial
  | none =>
    dsimp only
    cases t.idle.filter (· ≠ a) with
    | none => exact hstay t trivial
    | some n => exact hdispatch n t trivial

theorem wakeAndYield_current (hc : k.sched.current = some c) (ep : EndpointHandle)
    (outcome : SendOutcome) {err : SchedError} :
    (wakeAndYield ep outcome).run k ≠ .err err k' := by
  have hwake : Prog.Triple (fun t : Kernel => t.sched.current = some c)
      (onSched (unblockReceiverOn ep)) (fun _ t => t.sched.current = some c) fun _ _ => False :=
    (unblockScan_current ep _).zoom (fun _ ht => ht) (fun _ _ _ _ hs => hs) fun _ _ _ _ hcon => hcon
  have hyield : Prog.Triple (fun t : Kernel => t.sched.current = some c)
      (yieldNow (.sendAndYield outcome)) (fun _ _ => True) fun _ _ => False := by
    unfold yieldNow
    refine Prog.Triple.bind (Q := fun _ _ => True) (yieldPrelude_current.zoom (fun _ ht => ht)
      (fun _ _ _ _ _ => trivial) fun _ _ _ _ hcon => hcon) fun switch => ?_
    cases switch with
    | none => exact Prog.Triple.pure fun _ _ => trivial
    | some switch =>
      exact (switchTo_ends switch _).bind fun _ => Prog.Triple.pure fun _ _ => trivial
  have hends : Prog.Triple (fun t : Kernel => t.sched.current = some c)
      (wakeAndYield ep outcome) (fun _ _ => True) fun _ _ => False :=
    hwake.bind fun _ => hyield.bind fun _ => Prog.Triple.pure fun _ _ => trivial
  exact fun herr => (hends k hc).2 err k' herr

omit [Build] in
theorem resolveEpCap_target {required : CapRights}
    (htarget : Targets (k.ipc.tables table) epCap required ep) :
    (resolveEpCap table epCap).run k = .ok ep k := by
  obtain ⟨c, hlookup, hobj, -⟩ := htarget
  have hok : (onIpc table (IpcCall.onTable .staleHandle (CapabilityTable.lookup epCap))).run k =
      .ok c (k.withCall table (k.ipc.call table)) := onIpc_ok (onTable_ok hlookup)
  rw [withCall_self] at hok
  unfold resolveEpCap
  rw [Prog.bind_ok hok, hobj]
  rfl

/-- A deliverable send goes on to wake the receiver. -/
theorem ipcSendAndYield_deliverable (hsound : k.ipc.Sound)
    (hdel : Deliverable (k.ipc.call table) epCap transfer ep) (msg : Message) :
    ∃ call, (ipcSend epCap msg transfer).run (k.ipc.call table) = .ok .delivered call ∧
      (ipcSendAndYield table epCap msg transfer).run k =
        (wakeAndYield ep .delivered).run (k.withCall table call) := by
  obtain ⟨call, hsend⟩ :=
    hdel.delivers (hsound.tables table) (hsound.owned.not_undrained hdel.live) msg
  refine ⟨call, hsend, ?_⟩
  refine Eq.trans (Prog.bind_ok (resolveEpCap_target hdel.target)) ?_
  exact Prog.bind_ok (onIpc_ok hsend)

/-- A failed send changes nothing, unless it is made without a current task on an endpoint
whose receiver is waiting, and all its other checks pass. -/
theorem Ordered.sendAndYield_unchanged_iff (hk : k.Ordered) (table : TablePtr) (epCap : CapHandle)
    (msg : Message) (transfer : Option CapHandle) :
    (∀ err k', (ipcSendAndYield table epCap msg transfer).run k = .err err k' →
      k.Unchanged k') ↔
    ¬ (k.sched.current = none ∧ ∃ ep, Deliverable (k.ipc.call table) epCap transfer ep) := by
  have hsound := hk.sound
  constructor
  · intro hatomic ⟨hnone, ep, hdel⟩
    obtain ⟨call, hsend, hyield⟩ := ipcSendAndYield_deliverable hsound hdel msg
    have herr := wakeAndYield_noCurrent (k := k.withCall table call) hnone
      (fun i => hk.awake hnone i ep) .delivered
    have hkept := (hatomic _ _ (hyield.trans herr)).queues ep hdel.live
    have hend := ipcSend_end (s := k.ipc.call table) (hsound.tables table) epCap msg transfer
    rw [hsend] at hend
    cases hend with
    | @delivered ep' owned t' htarget _ _ _ _ =>
      obtain rfl := hdel.target.unique htarget
      have hstored : (k.ipc.queues.put ep (.recvComplete msg owned)).effective ep =
          k.ipc.queues.effective ep := hkept
      have hwaiting : k.ipc.queues.effective ep = .recvWaiting := hdel.waiting
      rw [effective_put, hwaiting] at hstored
      cases hstored
  · intro hcond err k' hfail
    rcases ipcSendAndYield_cases hsound table epCap msg transfer with
      ⟨err', queues, hq, hend⟩ | ⟨call, -, hend⟩ | ⟨ep, call, -, hend, hyield⟩
    · rw [hend] at hfail
      cases hfail
      exact unchanged_refused hq
    · rw [hend] at hfail
      cases hfail
    · have hdel : ∃ ep, Deliverable (k.ipc.call table) epCap transfer ep :=
        hend.deliverable (hsound.tables table)
      have hcurrent : k.sched.current ≠ none := fun hnone => hcond ⟨hnone, hdel⟩
      obtain ⟨c, hc⟩ := Option.ne_none_iff_exists'.mp hcurrent
      rw [hyield] at hfail
      exact absurd hfail (wakeAndYield_current (k := k.withCall table call) hc ep .delivered)

/-! ## Receives -/

/-- Blocking the current task dispatches another, or leaves the scheduler as it was. -/
theorem blockCurrent_restores {s : Scheduler} (hq : s.ready.Represents q)
    (hc : s.current = some c) (ep : EndpointHandle) : Prog.Triple (fun t => t = s) (blockCurrent ep)
      (fun switch t => switch = none → t = s) fun _ _ => False := by
  have hcur : (Prog.okOr s.current .noCurrentTask : SchedM TaskHandle) = pure c := by
    rw [hc, Prog.okOr_some]
  unfold blockCurrent
  intro t ht
  rw [ht, Prog.get_bind_run, hcur, Prog.pure_bind_run]
  clear t ht
  -- the state while nothing has been dispatched, with what is restored
  let blocked : Scheduler := { s with
    taskStates := Function.update s.taskStates c.slot.index (.blocked ep), current := none }
  have hread : Prog.Triple (fun u => u = s)
      (readCell taskArenaCapacity taskStates c.slot.index : SchedM _)
      (fun prior u => u = s ∧ prior = u.taskStates c.slot.index) fun _ _ => False := readCell_triple
  refine hread.bind (fun prior => ?_) s rfl
  refine debugAssert_triple.bind fun _ => ?_
  refine Prog.Triple.bind (Q := fun _ u => u = { s with
    taskStates := Function.update s.taskStates c.slot.index (.blocked ep) } ∧
      prior = s.taskStates c.slot.index) (writeCell_triple fun u hu => ?_) fun _ => ?_
  · obtain ⟨rfl, hprior⟩ := hu
    exact ⟨rfl, hprior⟩
  refine Prog.Triple.bind (Q := fun _ u => u = blocked ∧ prior = s.taskStates c.slot.index)
    (Prog.Triple.modify fun u hu => ?_) fun _ => ?_
  · obtain ⟨rfl, hprior⟩ := hu
    exact ⟨rfl, hprior⟩
  refine Prog.Triple.bind (Q := fun front u => front = none → u = blocked ∧
    prior = s.taskStates c.slot.index) ?_ fun front => ?_
  · intro u hu
    obtain ⟨rfl, hprior⟩ := hu
    cases q with
    | nil =>
      rw [dequeueReady_nil (s := blocked) hq]
      refine ⟨fun a u' hend => ?_, fun e u' hend => (nomatch hend)⟩
      cases hend
      exact fun _ => ⟨rfl, hprior⟩
    | cons n rest =>
      obtain ⟨r, -, hrun⟩ := dequeueReady_cons (s := blocked) hq
      rw [hrun]
      refine ⟨fun a u' hend => ?_, fun e u' hend => (nomatch hend)⟩
      cases hend
      exact fun hcon => (nomatch hcon)
  · intro u hu
    rw [Prog.get_bind_run]
    have hgo : ∀ n, Prog.Triple (fun _ => True)
        (do return some (← dispatchFrom c.slot.index n) : SchedM (Option Switch))
        (fun switch u => switch = none → u = s) fun _ _ => False := fun n =>
      dispatchSome_ends.post (fun switch u hne hnone => absurd hnone hne) fun _ _ hcon => hcon
    cases hnext : front.or (u.idle.filter (· ≠ c)) with
    | some n => exact hgo n u trivial
    | none =>
      obtain ⟨hu, hprior⟩ := hu (Option.or_eq_none_iff.mp hnext).1
      subst hu
      refine Prog.Triple.bind (P := fun u => u = blocked) (Q := fun _ u => u =
        { s with current := none }) (writeCell_triple fun u hu => ?_) (fun _ => ?_) blocked rfl
      · subst hu hprior
        show _ = _
        simp [blocked]
      · refine Prog.Triple.bind (Q := fun _ u => u = s) (Prog.Triple.modify fun u hu => ?_)
          fun _ => Prog.Triple.pure fun u hu _ => hu
        subst hu
        rw [← hc]

/-- The only error of the blocking phase is the deadlock, and it is rolled back. -/
theorem blockAndYield_err {err : SchedError} (k₁ : Kernel) {k'' : Kernel}
    (hq : k₁.sched.ready.Represents q) (hc : k₁.sched.current = some c)
    (hcancel : (onIpc table (ipcCancelRecv epCap)).run k₁ = .ok () k')
    (hfail : (blockAndYield table epCap ep).run k₁ = .err err k'') : k'' = k' := by
  obtain ⟨hok, herr⟩ := blockCurrent_restores hq hc ep k₁.sched rfl
  unfold blockAndYield at hfail
  cases hrun : (blockCurrent ep).run k₁.sched with
  | err e s => exact (herr e s hrun).elim
  | panic p =>
    have hpanic : (onSched (blockCurrent ep)).run k₁ = .panic p := Prog.zoom_panic hrun
    rw [Prog.bind_panic hpanic] at hfail
    cases hfail
  | ok switch s =>
    rw [Prog.bind_ok (onSched_ok hrun)] at hfail
    cases switch with
    | some switch =>
      -- the switch itself cannot fail
      have hswitch : Prog.Triple (fun _ => True) (do
          switchTo switch (.recvAndYield table epCap)
          return .switched : KernelM (Exit RecvOutcome)) (fun _ _ => True) fun _ _ => False :=
        (switchTo_ends switch _).bind fun _ => Prog.Triple.pure fun _ _ => trivial
      exact ((hswitch _ trivial).2 err k'' hfail).elim
    | none =>
      obtain rfl := hok none s hrun rfl
      dsimp only at hfail
      rw [Prog.bind_ok (Prog.attempt_ok hcancel), debugAssert_pos rfl, Prog.pure_bind_run] at hfail
      cases hfail
      rfl

/-- A receive that fails without having switched changes nothing. -/
theorem Ordered.recvAndYield_unchanged {err : SchedError} (hk : k.Ordered)
    (hfail : (ipcRecvAndYield table epCap).run k = .err err k') : k.Unchanged k' := by
  obtain ⟨q, hq⟩ := hk.queue
  have hsound := hk.sound
  unfold ipcRecvAndYield at hfail
  rw [Prog.get_bind_run] at hfail
  cases hc : k.sched.current with
  | none =>
    rw [Prog.require_neg (by simp [hc])] at hfail
    cases hfail
    exact unchanged_self k
  | some c =>
    rw [Prog.require_pos (by simp [hc]), Prog.pure_bind_run] at hfail
    rcases resolveEpCap_run k table epCap with ⟨cap, ep, hlookup, hobj, hresolve⟩ | ⟨e, hresolve⟩
    swap
    · rw [Prog.bind_err hresolve] at hfail
      cases hfail
      exact unchanged_self k
    rw [Prog.bind_ok hresolve] at hfail
    have hend := ipcRecv_end (s := k.ipc.call table) (hsound.tables table) epCap
    cases hr : (ipcRecv epCap).run (k.ipc.call table) with
    | panic p =>
      have hpanic : (onIpc table (ipcRecv epCap)).run k = .panic p := Prog.zoom_panic hr
      rw [Prog.bind_panic hpanic] at hfail
      cases hfail
    | err e call =>
      rw [hr] at hend
      cases hend with
      | refused hq _ =>
        rw [Prog.bind_err (onIpc_err hr)] at hfail
        cases hfail
        exact unchanged_refused hq
    | ok outcome call =>
      rw [hr] at hend
      rw [Prog.bind_ok (onIpc_ok hr)] at hfail
      cases hend with
      | received => cases hfail
      | @registered ep' htarget hlive hstate =>
        have hep := htarget.object_eq hlookup
        rw [hobj] at hep
        cases hep
        have hcancel := cancel_run (k := k) hsound htarget hlive
        have hsame := blockAndYield_err (k.withCall table { k.ipc.call table with
          queues := k.ipc.queues.put ep .recvWaiting }) hq hc hcancel hfail
        rw [hsame]
        apply unchanged_refused
        rw [← hstate]
        exact .settled hlive

end Kernel

end Tyrne
