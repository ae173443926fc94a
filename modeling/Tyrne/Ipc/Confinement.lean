import Tyrne.Ipc.Provenance
import Tyrne.Library.Footprint
import Tyrne.Library.Unwinding

/-!
# Confinement

The tables, the endpoints and the notifications are divided between domains, and no
capability of a domain leads to an object of another. Then no sequence of table operations
and IPC operations lets a capability cross over, and what the other domains do cannot be
seen by a domain at all: its replies and its part of the state are the ones it would have
had alone.
-/

namespace Tyrne

open CapabilityTable IpcQueues

/-! ## Footprints of the IPC operations -/

/-- The waiter cells of the slots in `I`. -/
def waiterCells (I : Set Index) : Footprint IpcQueues where
  inside q q' := ∀ i ∈ I, q'.states i = q.states i ∧ q'.slotGenerations i = q.slotGenerations i
  outside q q' := ∀ i ∉ I, q'.states i = q.states i ∧ q'.slotGenerations i = q.slotGenerations i
  refl _ _ _ := ⟨rfl, rfl⟩
  trans _ _ _ h h' i hi := ⟨(h' i hi).1.trans (h i hi).1, (h' i hi).2.trans (h i hi).2⟩

/-- The caller's table and the waiter cells of the slots in `I`, when the endpoints are
those of `arena`. -/
def callCells (arena : EndpointArena) (I : Set Index) : Footprint IpcCall where
  inside s t := s.epArena = arena ∧ t.epArena = arena ∧ t.table = s.table ∧
    (waiterCells I).inside s.queues t.queues
  outside s t := t.epArena = s.epArena ∧ (waiterCells I).outside s.queues t.queues
  refl _ := ⟨rfl, (waiterCells I).refl _⟩
  trans _ _ _ h h' := ⟨h'.1.trans h.1, (waiterCells I).trans _ _ _ h.2 h'.2⟩

section Cells

variable {I : Set Index} {i : Index} {h : EndpointHandle}

theorem within_states (hi : i ∈ I) :
    (waiterCells I).Within (fun _ => True)
      (readCell endpointArenaCapacity states i : QueuesM EndpointState) := by
  intro q q' hin
  unfold readCell
  dsimp only
  rw [(hin i hi).1]
  split
  · exact .ok trivial hin ((waiterCells I).refl _) ((waiterCells I).refl _)
  · exact .panic

theorem within_slotGenerations (hi : i ∈ I) :
    (waiterCells I).Within (fun _ => True)
      (readCell endpointArenaCapacity slotGenerations i : QueuesM Generation) := by
  intro q q' hin
  unfold readCell
  dsimp only
  rw [(hin i hi).2]
  split
  · exact .ok trivial hin ((waiterCells I).refl _) ((waiterCells I).refl _)
  · exact .panic

theorem within_setState (hi : i ∈ I) (st : EndpointState) :
    (waiterCells I).Within (fun _ => True) (setState i st) := by
  have houtside : ∀ q : IpcQueues, (waiterCells I).outside q
      { q with states := Function.update q.states i st } := by
    intro q j hj
    have hne : j ≠ i := fun heq => hj (heq ▸ hi)
    exact ⟨Function.update_of_ne hne .., rfl⟩
  intro q q' hin
  unfold setState writeCell
  dsimp only
  split
  · refine .ok trivial (fun j hj => ⟨?_, (hin j hj).2⟩) (houtside q) (houtside q')
    by_cases hji : j = i
    · subst hji
      simp
    · simpa [Function.update_of_ne hji] using (hin j hj).1
  · exact .panic

theorem within_setGeneration (hi : i ∈ I) (gen : Generation) :
    (waiterCells I).Within (fun _ => True) (setGeneration i gen) := by
  have houtside : ∀ q : IpcQueues, (waiterCells I).outside q
      { q with slotGenerations := Function.update q.slotGenerations i gen } := by
    intro q j hj
    have hne : j ≠ i := fun heq => hj (heq ▸ hi)
    exact ⟨rfl, Function.update_of_ne hne ..⟩
  intro q q' hin
  unfold setGeneration writeCell
  dsimp only
  split
  · refine .ok trivial (fun j hj => ⟨(hin j hj).1, ?_⟩) (houtside q) (houtside q')
    by_cases hji : j = i
    · subst hji
      simp
    · simpa [Function.update_of_ne hji] using (hin j hj).2
  · exact .panic

variable [Build]

theorem within_debugAssert {σ ε : Type} {F : Footprint σ} (c : Prop) [Decidable c]
    (message : String) : F.Within (fun _ => True) (debugAssert c message : Prog σ ε Unit) := by
  unfold debugAssert
  exact (Footprint.within_panic _).ite (Footprint.within_pure trivial)

theorem within_resetIfStaleGeneration (hi : h.slot.index ∈ I) :
    (waiterCells I).Within (· = h.slot.index) (resetIfStaleGeneration h) := by
  unfold resetIfStaleGeneration
  refine (within_slotGenerations hi).bind fun recorded _ => ?_
  refine .ite ?_ (Footprint.within_pure rfl)
  refine (within_states hi).bind fun state _ => ?_
  refine (within_debugAssert _ _).bind fun _ _ => ?_
  refine (within_setState hi .idle).bind fun _ _ => ?_
  exact (within_setGeneration hi _).bind fun _ _ => Footprint.within_pure rfl

theorem within_peekState (hi : h.slot.index ∈ I) :
    (waiterCells I).Within (fun _ => True) (peekState h) := by
  refine (within_resetIfStaleGeneration hi).bind fun i hindex => ?_
  rw [hindex]
  exact within_states hi

theorem within_takeState (hi : h.slot.index ∈ I) :
    (waiterCells I).Within (fun _ => True) (takeState h) := by
  refine (within_resetIfStaleGeneration hi).bind fun i hindex => ?_
  rw [hindex]
  refine (within_states hi).bind fun old _ => ?_
  exact (within_setState hi .idle).bind fun _ _ => Footprint.within_pure trivial

end Cells

section Calls

open IpcCall

variable {I : Set Index} {arena : EndpointArena} {h : EndpointHandle} {α : Type}

theorem within_onQueues {P : α → Prop} {m : QueuesM α} (hm : (waiterCells I).Within P m) :
    (callCells arena I).Within P (onQueues m) := by
  rintro s t ⟨hs, ht, htable, hqueues⟩
  refine (hm _ _ hqueues).zoom ?_ ?_ ?_
  · exact fun u v huv _ _ => ⟨hs, ht, htable, huv⟩
  · exact fun u hu => ⟨rfl, hu⟩
  · exact fun u hu => ⟨rfl, hu⟩

theorem within_onTable (err : IpcError) (m : TableM α) :
    (callCells arena I).Within (fun _ => True) (onTable err m) := by
  rintro s t ⟨hs, ht, htable, hqueues⟩
  refine (Footprint.within_whole m _ _ htable.symm).zoom ?_ ?_ ?_
  · exact fun u v huv _ _ => ⟨hs, ht, huv.symm, hqueues⟩
  · exact fun u _ => ⟨rfl, (waiterCells I).refl _⟩
  · exact fun u _ => ⟨rfl, (waiterCells I).refl _⟩

theorem within_requireLive (h : EndpointHandle) :
    (callCells arena I).Within (fun _ => Live arena h) (requireLive h) := by
  have hrefl := (callCells arena I).refl
  rintro s t ⟨hs, ht, hin⟩
  unfold requireLive
  rw [Prog.get_bind_run, Prog.get_bind_run, hs, ht]
  cases hget : arena.get h.slot with
  | none => exact .err ⟨hs, ht, hin⟩ (hrefl s) (hrefl t)
  | some ep =>
    have hlive : Live arena h := by
      unfold Live
      rw [hget]
      rfl
    exact .ok hlive ⟨hs, ht, hin⟩ (hrefl s) (hrefl t)

theorem within_validateTransfer (transfer : Option CapHandle) :
    (callCells arena I).Within (fun _ => True) (validateTransfer transfer) := by
  cases transfer with
  | none => exact Footprint.within_pure trivial
  | some xfer =>
    refine (within_onTable _ _).bind fun c _ => ?_
    exact (Footprint.within_require _ _).weaken fun _ _ => trivial

theorem within_installCapIfSome (cap : Option Capability) :
    (callCells arena I).Within (fun _ => True) (installCapIfSome cap) := by
  cases cap with
  | none => exact Footprint.within_pure trivial
  | some c => exact (within_onTable _ _).bind fun _ _ => Footprint.within_pure trivial

/-- The endpoint that the check lets through is named by the caller's table. -/
theorem validateEpCap_alike {s t : IpcCall} (hin : (callCells arena I).inside s t)
    (epCap : CapHandle) (required : CapRights) :
    (callCells arena I).Alike (fun h => Targets s.table epCap required h) s t
      ((validateEpCap epCap required).run s) ((validateEpCap epCap required).run t) := by
  have hrefl := (callCells arena I).refl
  rcases validateEpCap_cases s.table epCap required with ⟨h, htarget, hrun⟩ | ⟨_, err, hrun⟩
  · rw [hrun s rfl, hrun t hin.2.2.1]
    exact .ok htarget hin (hrefl s) (hrefl t)
  · rw [hrun s rfl, hrun t hin.2.2.1]
    exact .err hin (hrefl s) (hrefl t)

variable [Build] {s t : IpcCall} {epCap : CapHandle}

theorem within_takeCapIfSome (transfer : Option CapHandle) :
    (callCells arena I).Within (fun _ => True) (takeCapIfSome transfer) := by
  cases transfer with
  | none => exact Footprint.within_pure trivial
  | some xfer => exact (within_onTable _ _).bind fun _ _ => Footprint.within_pure trivial

/-- A send through a table whose live endpoints have their slots in `I`. -/
theorem ipcSend_alike (hin : (callCells arena I).inside s t)
    (hreach : ∀ h, Targets s.table epCap .send h → Live arena h → h.slot.index ∈ I)
    (msg : Message) (transfer : Option CapHandle) :
    (callCells arena I).Alike (fun _ => True) s t
      ((ipcSend epCap msg transfer).run s) ((ipcSend epCap msg transfer).run t) := by
  refine (validateEpCap_alike hin epCap .send).bind fun h htarget => ?_
  refine (within_validateTransfer transfer).bind fun _ _ => ?_
  refine (within_requireLive h).bind fun _ hlive => ?_
  have hi := hreach h htarget hlive
  refine (within_onQueues (within_peekState hi)).bind fun peeked _ => ?_
  refine (Footprint.within_require _ _).bind fun _ _ => ?_
  refine (within_takeCapIfSome transfer).bind fun owned _ => ?_
  refine (within_onQueues (within_takeState hi)).bind fun old _ => ?_
  cases old with
  | idle =>
    exact (within_onQueues (within_setState hi _)).bind fun _ _ => Footprint.within_pure trivial
  | recvWaiting =>
    exact (within_onQueues (within_setState hi _)).bind fun _ _ => Footprint.within_pure trivial
  | sendPending => exact Footprint.within_panic _
  | recvComplete => exact Footprint.within_panic _

theorem ipcRecv_alike (hin : (callCells arena I).inside s t)
    (hreach : ∀ h, Targets s.table epCap .recv h → Live arena h → h.slot.index ∈ I) :
    (callCells arena I).Alike (fun _ => True) s t
      ((ipcRecv epCap).run s) ((ipcRecv epCap).run t) := by
  refine (validateEpCap_alike hin epCap .recv).bind fun h htarget => ?_
  refine (within_requireLive h).bind fun _ hlive => ?_
  have hi := hreach h htarget hlive
  refine (within_onQueues (within_peekState hi)).bind fun peeked _ => ?_
  refine Footprint.within_get (fun s t hin => by rw [hin.2.2.1]) fun c => ?_
  refine (Footprint.within_require _ _).bind fun _ _ => ?_
  refine (within_onQueues (within_takeState hi)).bind fun old _ => ?_
  cases old with
  | idle =>
    exact (within_onQueues (within_setState hi _)).bind fun _ _ => Footprint.within_pure trivial
  | recvWaiting =>
    exact (within_onQueues (within_setState hi _)).bind fun _ _ => Footprint.within_fail _
  | sendPending msg cap =>
    exact (within_installCapIfSome cap).bind fun _ _ => Footprint.within_pure trivial
  | recvComplete msg cap =>
    exact (within_installCapIfSome cap).bind fun _ _ => Footprint.within_pure trivial

theorem ipcCancelRecv_alike (hin : (callCells arena I).inside s t)
    (hreach : ∀ h, Targets s.table epCap .recv h → Live arena h → h.slot.index ∈ I) :
    (callCells arena I).Alike (fun _ => True) s t
      ((ipcCancelRecv epCap).run s) ((ipcCancelRecv epCap).run t) := by
  refine (validateEpCap_alike hin epCap .recv).bind fun h htarget => ?_
  refine (within_requireLive h).bind fun _ hlive => ?_
  have hi := hreach h htarget hlive
  refine (within_onQueues (within_peekState hi)).bind fun state _ => ?_
  exact .ite (within_onQueues (within_setState hi _)) (Footprint.within_pure trivial)

end Calls

/-! ## Footprints of notifications -/

/-- The notification slots in `J`, while every handle stays live or dead as it is. -/
def notifCells (J : Set Index) : Footprint NotificationArena where
  inside a a' := (∀ id, (a'.get id).isSome ↔ (a.get id).isSome) ∧ ∀ i ∈ J, a'.slots i = a.slots i
  outside a a' := (∀ id, (a'.get id).isSome ↔ (a.get id).isSome) ∧ ∀ i ∉ J, a'.slots i = a.slots i
  refl _ := ⟨fun _ => Iff.rfl, fun _ _ => rfl⟩
  trans _ _ _ h h' := ⟨fun id => (h'.1 id).trans (h.1 id),
    fun i hi => (h'.2 i hi).trans (h.2 i hi)⟩

theorem validateNotifCap_cases (table : CapabilityTable) (notifCap : CapHandle) :
    (∃ h c, (lookup notifCap).run table = .ok c table ∧ c.object = .notification h ∧
      ∀ arena, (validateNotifCap table notifCap).run arena = .ok h arena) ∨
    ∃ err, ∀ arena, (validateNotifCap table notifCap).run arena = .err err arena := by
  unfold validateNotifCap
  rcases lookup_cases table notifCap with ⟨e, -, hrun⟩ | ⟨-, hrun⟩
  · have hok : ∀ arena : NotificationArena, (Prog.zoom (fun _ => table) (fun _ arena => arena)
        (fun _ => IpcError.staleHandle) (lookup notifCap)).run arena = .ok e.capability arena :=
      fun arena => Prog.zoom_ok (t := arena) hrun
    cases hobj : e.capability.object with
    | notification h =>
      by_cases hright : e.capability.rights.contains .notify
      · refine Or.inl ⟨h, e.capability, hrun, hobj, fun arena => ?_⟩
        rw [Prog.bind_ok (hok arena), hobj]
        dsimp only
        rw [Prog.require_pos hright]
        rfl
      · refine Or.inr ⟨.missingRight, fun arena => ?_⟩
        rw [Prog.bind_ok (hok arena), hobj]
        dsimp only
        rw [Prog.require_neg hright]
        rfl
    | task | endpoint | addressSpace | debugConsole =>
      refine Or.inr ⟨.wrongObjectKind, fun arena => ?_⟩
      rw [Prog.bind_ok (hok arena), hobj]
      rfl
  · exact Or.inr ⟨.staleHandle, fun arena => Prog.bind_err (Prog.zoom_err (t := arena) hrun)⟩

/-- A notification through a table whose live notifications have their slots in `J`. -/
theorem ipcNotify_alike {J : Set Index} {a a' : NotificationArena} {table : CapabilityTable}
    (hin : (notifCells J).inside a a') (notifCap : CapHandle)
    (hreach : ∀ h c, (lookup notifCap).run table = .ok c table → c.object = .notification h →
      (a.get h.slot).isSome → h.slot.index ∈ J) (bits : BitVec 64) :
    (notifCells J).Alike (fun _ => True) a a' ((ipcNotify notifCap table bits).run a)
      ((ipcNotify notifCap table bits).run a') := by
  have hrefl := (notifCells J).refl
  unfold ipcNotify
  rcases validateNotifCap_cases table notifCap with ⟨h, c, hlookup, hobj, hrun⟩ | ⟨err, hrun⟩
  · rw [Prog.bind_ok (hrun a), Prog.bind_ok (hrun a'), Prog.get_bind_run, Prog.get_bind_run]
    cases hget : a.get h.slot with
    | none =>
      have hnone : a'.get h.slot = none := by
        have := hin.1 h.slot
        simpa [hget] using this
      unfold Arena.getMut
      rw [hget, hnone]
      exact .err hin (hrefl a) (hrefl a')
    | some notif =>
      have hj := hreach h c hlookup hobj (by rw [hget]; rfl)
      have hslot := hin.2 _ hj
      have hget' : a'.get h.slot = some notif := by
        rw [← hget]
        unfold Arena.get
        rw [hslot]
      have hmut : ∀ {arena : NotificationArena}, arena.get h.slot = some notif →
          arena.getMut h.slot = some (notif, fun n =>
            arena.setSlot h.slot.index { arena.slots h.slot.index with entry := some n }) := by
        intro arena hget
        unfold Arena.getMut
        rw [hget]
        rfl
      have houtside : ∀ {arena : NotificationArena}, arena.get h.slot = some notif →
          (notifCells J).outside arena (arena.setSlot h.slot.index
            { arena.slots h.slot.index with entry := some (notif.set bits) }) := by
        intro arena hget
        refine ⟨fun id => Arena.getMut_live _ id (hmut hget), fun i hi => ?_⟩
        have hne : i ≠ h.slot.index := fun heq => hi (heq ▸ hj)
        exact Function.update_of_ne hne ..
      have hout := houtside hget
      have hout' := houtside hget'
      rw [hmut hget, hmut hget']
      refine .ok trivial ⟨fun id => ?_, fun i hi => ?_⟩ hout hout'
      · exact (hout'.1 id).trans ((hin.1 id).trans (hout.1 id).symm)
      · by_cases heq : i = h.slot.index
        · subst heq
          simp [Arena.setSlot, hslot]
        · simpa [Arena.setSlot, Function.update_of_ne heq] using hin.2 i hi
  · rw [Prog.bind_err (hrun a), Prog.bind_err (hrun a')]
    exact .err hin (hrefl a) (hrefl a')

/-! ## Domains -/

/-- The domain that each table, endpoint slot and notification slot belongs to. -/
structure Domains (τ δ : Type) where
  table : τ → δ
  endpoint : Index → δ
  notification : Index → δ

/-- The task an operation is called for; creation and destruction have none. -/
def IpcOp.caller {τ : Type} : IpcOp τ → Option τ
  | .table who _ | .send who .. | .recv who _ | .cancelRecv who _ | .notify who .. => some who
  | _ => none

namespace IpcSystem

variable {τ δ : Type} {D : Domains τ δ} {d e : δ} {s s' t : IpcSystem τ}

/-- The object belongs to the domain, or there is no such endpoint or notification. -/
def Owns (D : Domains τ δ) (s : IpcSystem τ) (d : δ) : CapObject → Prop
  | .endpoint h => Live s.epArena h → D.endpoint h.slot.index = d
  | .notification h => (s.notifArena.get h.slot).isSome → D.notification h.slot.index = d
  | _ => True

/-- The domain of the table a capability is in, or of the endpoint that carries it. -/
def Place.domain (D : Domains τ δ) : Place τ → δ
  | .table who _ => D.table who
  | .flight i => D.endpoint i

/-- No capability leads out of its domain. -/
def Separated (D : Domains τ δ) (s : IpcSystem τ) : Prop :=
  ∀ p c, s.content p = some c → Owns D s (p.domain D) c.object

/-- An operation on behalf of a task; a new root or a derivation names an object of the
domain of the table it goes to. -/
def Admits (D : Domains τ δ) (s : IpcSystem τ) : IpcOp τ → Prop
  | .table who (.insertRoot cap) => Owns D s (D.table who) cap.object
  | .table who (.capDerive _ _ newObject) => Owns D s (D.table who) newObject
  | op => op.caller.isSome

/-- What the domain `d` can see of `t` is as in `s`: its tables, the waiter cells of its
endpoints, its notifications, and which handles are live. -/
structure SameView (D : Domains τ δ) (d : δ) (s t : IpcSystem τ) : Prop where
  epArena : t.epArena = s.epArena
  tables : ∀ who, D.table who = d → t.tables who = s.tables who
  queues : (waiterCells {i | D.endpoint i = d}).inside s.queues t.queues
  notifs : (notifCells {i | D.notification i = d}).inside s.notifArena t.notifArena

/-- Only the domain `d` has changed. -/
structure OnlyChanges (D : Domains τ δ) (d : δ) (s t : IpcSystem τ) : Prop where
  epArena : t.epArena = s.epArena
  tables : ∀ who, D.table who ≠ d → t.tables who = s.tables who
  queues : (waiterCells {i | D.endpoint i = d}).outside s.queues t.queues
  notifs : (notifCells {i | D.notification i = d}).outside s.notifArena t.notifArena

theorem SameView.refl (s : IpcSystem τ) : SameView D d s s :=
  ⟨rfl, fun _ _ => rfl, fun _ _ => ⟨rfl, rfl⟩, fun _ => Iff.rfl, fun _ _ => rfl⟩

theorem SameView.symm (h : SameView D d s t) : SameView D d t s where
  epArena := h.epArena.symm
  tables who hwho := (h.tables who hwho).symm
  queues i hi := ⟨(h.queues i hi).1.symm, (h.queues i hi).2.symm⟩
  notifs := ⟨fun id => (h.notifs.1 id).symm, fun i hi => (h.notifs.2 i hi).symm⟩

theorem SameView.trans (h : SameView D d s t) (h' : SameView D d t s') :
    SameView D d s s' where
  epArena := h'.epArena.trans h.epArena
  tables who hwho := (h'.tables who hwho).trans (h.tables who hwho)
  queues i hi := ⟨(h'.queues i hi).1.trans (h.queues i hi).1,
    (h'.queues i hi).2.trans (h.queues i hi).2⟩
  notifs := ⟨fun id => (h'.notifs.1 id).trans (h.notifs.1 id),
    fun i hi => (h'.notifs.2 i hi).trans (h.notifs.2 i hi)⟩

theorem OnlyChanges.refl (s : IpcSystem τ) : OnlyChanges D d s s :=
  ⟨rfl, fun _ _ => rfl, fun _ _ => ⟨rfl, rfl⟩, fun _ => Iff.rfl, fun _ _ => rfl⟩

/-- A domain does not see what another one changes. -/
theorem OnlyChanges.sameView (h : OnlyChanges D e s t) (hne : e ≠ d) : SameView D d s t where
  epArena := h.epArena
  tables who hwho := h.tables who fun heq => hne (heq.symm.trans hwho)
  queues i hi := h.queues i fun heq => hne (Eq.trans (Eq.symm heq) hi)
  notifs := ⟨h.notifs.1, fun i hi => h.notifs.2 i fun heq => hne (Eq.trans (Eq.symm heq) hi)⟩

def domainCells (D : Domains τ δ) (d : δ) : Footprint (IpcSystem τ) where
  inside := SameView D d
  outside := OnlyChanges D d
  refl := OnlyChanges.refl
  trans _ _ _ h h' :=
    { epArena := h'.epArena.trans h.epArena
      tables := fun who hwho => (h'.tables who hwho).trans (h.tables who hwho)
      queues := Footprint.trans _ _ _ _ h.queues h'.queues
      notifs := Footprint.trans _ _ _ _ h.notifs h'.notifs }

/-- Which handles are live is the same on both sides, so ownership is. -/
theorem Owns.congr {o : CapObject} (hep : t.epArena = s.epArena)
    (hlive : ∀ id, (t.notifArena.get id).isSome ↔ (s.notifArena.get id).isSome)
    (h : Owns D s d o) : Owns D t d o := by
  cases o with
  | endpoint h' => exact fun hl => h (hep ▸ hl)
  | notification h' => exact fun hl => h ((hlive h'.slot).mp hl)
  | task | addressSpace | debugConsole => trivial

/-- Own tables lead to own endpoints. -/
theorem Separated.endpoint (h : Separated D s) {who : τ} {epCap : CapHandle}
    {required : CapRights} {ep : EndpointHandle}
    (htarget : Targets (s.tables who) epCap required ep) (hlive : Live s.epArena ep) :
    D.endpoint ep.slot.index = D.table who := by
  obtain ⟨c, hlookup, hobj, -⟩ := htarget
  have howns := h (.table who epCap) c (named_eq_some.mpr hlookup)
  rw [hobj] at howns
  exact howns hlive

theorem Separated.notification (h : Separated D s) {who : τ} {notifCap : CapHandle}
    {n : NotificationHandle} {c : Capability}
    (hlookup : (lookup notifCap).run (s.tables who) = .ok c (s.tables who))
    (hobj : c.object = .notification n) (hlive : (s.notifArena.get n.slot).isSome) :
    D.notification n.slot.index = D.table who := by
  have howns := h (.table who notifCap) c (named_eq_some.mpr hlookup)
  rw [hobj] at howns
  exact howns hlive

variable [DecidableEq τ]

/-! ## One step -/

/-- A call on behalf of a task stays within its domain when the call itself stays within
its table and the cells of the domain. -/
theorem onCall_alike {α : Type} {who : τ} {m : IpcM α} (hview : SameView D (D.table who) s t)
    (hm : (callCells s.epArena {i | D.endpoint i = D.table who}).Alike (fun _ => True)
      (s.call who) (t.call who) (m.run (s.call who)) (m.run (t.call who))) :
    (domainCells D (D.table who)).Alike (fun _ => True) s t
      ((onCall who m).run s) ((onCall who m).run t) := by
  have houtside : ∀ (r : IpcSystem τ) (c : IpcCall),
      (callCells s.epArena {i | D.endpoint i = D.table who}).outside (r.call who) c →
      OnlyChanges D (D.table who) r (r.endCall who c) := by
    intro r c hc
    refine ⟨hc.1, fun w hw => ?_, hc.2, fun _ => Iff.rfl, fun _ _ => rfl⟩
    have hne : w ≠ who := fun heq => hw (heq ▸ rfl)
    simp [endCall, setTable, hne]
  refine hm.zoom (fun u v huv _ _ => ?_) (houtside s) (houtside t)
  refine ⟨huv.2.1.trans huv.1.symm, fun w hw => ?_, huv.2.2.2, hview.notifs⟩
  by_cases heq : w = who
  · subst heq
    simpa [endCall, setTable] using huv.2.2.1
  · simpa [endCall, setTable, heq] using hview.tables w hw

variable [Build]

/-- An operation on behalf of a task stays within its domain. -/
theorem exec_alike (hsep : Separated D s) {op : IpcOp τ} {who : τ}
    (hcaller : op.caller = some who) (hview : SameView D (D.table who) s t) :
    (domainCells D (D.table who)).Alike (fun _ => True) s t
      ((exec op).run s) ((exec op).run t) := by
  have htable : t.tables who = s.tables who := hview.tables who rfl
  have hin : (callCells s.epArena {i | D.endpoint i = D.table who}).inside (s.call who)
      (t.call who) := ⟨rfl, hview.epArena, htable, hview.queues⟩
  have hpure : ∀ {α : Type} (f : α → IpcReply) (a : α),
      (domainCells D (D.table who)).Within (fun _ => True)
        (pure (f a) : SystemM τ IpcReply) := fun _ _ => Footprint.within_pure trivial
  cases op with
  | table _ op =>
    cases hcaller
    refine Footprint.Alike.bind (P := fun _ => True) ?_ fun a _ => hpure _ a
    have houtside : ∀ (r : IpcSystem τ) (u : CapabilityTable),
        OnlyChanges D (D.table who) r (r.setTable who u) := by
      intro r u
      refine ⟨rfl, fun w hw => ?_, fun _ _ => ⟨rfl, rfl⟩, fun _ => Iff.rfl, fun _ _ => rfl⟩
      have hne : w ≠ who := fun heq => hw (heq ▸ rfl)
      simp [setTable, hne]
    refine (Footprint.within_whole op.exec _ _ htable.symm).zoom (fun u v huv _ _ => ?_)
      (fun u _ => houtside s u) fun u _ => houtside t u
    refine ⟨hview.epArena, fun w hw => ?_, hview.queues, hview.notifs⟩
    by_cases heq : w = who
    · subst heq
      simpa [setTable] using huv.symm
    · simpa [setTable, heq] using hview.tables w hw
  | send _ epCap msg transfer =>
    cases hcaller
    refine (onCall_alike hview ?_).bind fun a _ => hpure _ a
    exact ipcSend_alike hin (fun h htarget hlive => hsep.endpoint htarget hlive) msg transfer
  | recv _ epCap =>
    cases hcaller
    refine (onCall_alike hview ?_).bind fun a _ => hpure _ a
    exact ipcRecv_alike hin fun h htarget hlive => hsep.endpoint htarget hlive
  | cancelRecv _ epCap =>
    cases hcaller
    refine (onCall_alike hview ?_).bind fun a _ => hpure (fun _ => .done) a
    exact ipcCancelRecv_alike hin fun h htarget hlive => hsep.endpoint htarget hlive
  | notify _ notifCap bits =>
    cases hcaller
    unfold exec
    rw [Prog.get_bind_run, Prog.get_bind_run, htable]
    refine Footprint.Alike.bind (P := fun _ => True) ?_ fun a _ => hpure (fun _ => .done) a
    have hnotify := ipcNotify_alike hview.notifs notifCap
      (fun h c hlookup hobj hlive => hsep.notification hlookup hobj hlive) bits
    refine hnotify.zoom (fun u v huv _ _ => ?_) (fun u hu => ?_) fun u hu => ?_
    · exact ⟨hview.epArena, hview.tables, hview.queues, huv⟩
    · exact ⟨rfl, fun _ _ => rfl, fun _ _ => ⟨rfl, rfl⟩, hu⟩
    · exact ⟨rfl, fun _ _ => rfl, fun _ _ => ⟨rfl, rfl⟩, hu⟩
  | createEndpoint | destroyEndpoint | createNotification | destroyNotification => cases hcaller

omit [DecidableEq τ] [Build] in
theorem Admits.caller {op : IpcOp τ} (h : Admits D s op) : ∃ who, op.caller = some who := by
  cases op with
  | table who => exact ⟨who, rfl⟩
  | send who => exact ⟨who, rfl⟩
  | recv who => exact ⟨who, rfl⟩
  | cancelRecv who => exact ⟨who, rfl⟩
  | notify who => exact ⟨who, rfl⟩
  | createEndpoint => cases h
  | destroyEndpoint => cases h
  | createNotification => cases h
  | destroyNotification => cases h

omit [DecidableEq τ] [Build] in
theorem Admits.congr {op : IpcOp τ} (hep : t.epArena = s.epArena)
    (hlive : ∀ id, (t.notifArena.get id).isSome ↔ (s.notifArena.get id).isSome)
    (h : Admits D s op) : Admits D t op := by
  cases op with
  | table who op =>
    cases op with
    | insertRoot cap => exact Owns.congr hep hlive h
    | capDerive src newRights newObject => exact Owns.congr (o := newObject) hep hlive h
    | capCopy | capRevoke | capDrop | capTake => exact h
  | send | recv | cancelRecv | notify => exact h
  | createEndpoint | destroyEndpoint | createNotification | destroyNotification => exact h

/-- An admitted operation and its reply. -/
structure ConfinedStep (D : Domains τ δ) (s : IpcSystem τ)
    (act : IpcOp τ × Except SystemError IpcReply) (s' : IpcSystem τ) : Prop where
  admits : Admits D s act.1
  exec : (IpcSystem.exec act.1).run s = .returned act.2 s'

variable {op : IpcOp τ} {reply : Except SystemError IpcReply}

/-- A step changes the caller's domain only. -/
theorem ConfinedStep.onlyChanges (hstep : ConfinedStep D s (op, reply) s')
    (hsep : Separated D s) {who : τ} (hcaller : op.caller = some who) :
    OnlyChanges D (D.table who) s s' := by
  have halike := exec_alike hsep hcaller (SameView.refl s)
  rw [hstep.exec] at halike
  obtain ⟨_, _, _, hout, _⟩ := halike.returned
  exact hout

/-- The endpoint that a link goes through belongs to the domain of the caller. -/
theorem Effect.endpoint_domain {epCap : CapHandle} {h : EndpointHandle} {who : τ}
    {r : IpcReply} (hsep : Separated D s) (heffect : Effect s op (.ok r) s')
    (hop : (∃ msg transfer, op = .send who epCap msg transfer) ∨
      op = .recv who epCap ∧ ∃ msg cap, r = .received (.received msg cap))
    (htarget : target (s.tables who) epCap = some h) :
    D.endpoint h.slot.index = D.table who := by
  have hfound : ∃ h' required, Targets (s.tables who) epCap required h' ∧ Live s.epArena h' := by
    rcases hop with ⟨msg, transfer, rfl⟩ | ⟨rfl, msg, cap, rfl⟩
    · cases heffect with
      | send hend =>
        cases hend with
        | delivered htarget hlive => exact ⟨_, _, htarget, hlive⟩
        | enqueued htarget hlive => exact ⟨_, _, htarget, hlive⟩
    · cases heffect with
      | recv hend =>
        cases hend with
        | received htarget hlive => exact ⟨_, _, htarget, hlive⟩
  obtain ⟨h', required, htarget', hlive⟩ := hfound
  have heq : h = h' := Option.some.inj (htarget.symm.trans (target_of_targets htarget'))
  subst heq
  exact hsep.endpoint htarget' hlive

/-- No step lets a capability cross over. -/
theorem ConfinedStep.separated (hstep : ConfinedStep D s (op, reply) s')
    (hwf : ∀ who, (s.tables who).WellFormed) (hsep : Separated D s) : Separated D s' := by
  obtain ⟨who, hcaller⟩ := hstep.admits.caller
  have hout := hstep.onlyChanges hsep hcaller
  have hev : Step s ⟨s, op, reply, s'⟩ s' := ⟨rfl, rfl, hstep.exec⟩
  have heffect : Effect s op reply s' := Effect.of_step hwf hev
  intro p c hcontent
  refine Owns.congr (s := s) hout.epArena hout.notifs.1 ?_
  have harrives : Arrives ⟨s, op, reply, s'⟩ p c := Effect.arrives heffect hwf hcontent
  rcases harrives with hold | ⟨w, hd, rfl, rfl, _⟩ | ⟨p₀, c₀, hfrom, hlink⟩
  · exact hsep p c hold
  · exact hstep.admits
  · have howned := hsep p₀ c₀ hfrom
    cases hlink with
    | copy => exact howned
    | derive hop =>
      cases hop
      exact hstep.admits
    | send hop hreply htarget =>
      cases hop
      cases hreply
      have hdomain := Effect.endpoint_domain hsep heffect (Or.inl ⟨_, _, rfl⟩) htarget
      unfold Place.domain at howned ⊢
      dsimp only at howned ⊢
      rwa [hdomain]
    | recv hop hreply htarget =>
      cases hop
      cases hreply
      have hdomain := Effect.endpoint_domain hsep heffect (Or.inr ⟨rfl, _, _, rfl⟩) htarget
      unfold Place.domain at howned ⊢
      dsimp only at howned ⊢
      rwa [← hdomain]

/-! ## Whole runs -/

/-- What every state of a confined run satisfies. -/
structure Confined (D : Domains τ δ) (s : IpcSystem τ) : Prop where
  wellFormed : ∀ who, (s.tables who).WellFormed
  separated : Separated D s

theorem Confined.step {act : IpcOp τ × Except SystemError IpcReply} (h : Confined D s)
    (hstep : ConfinedStep D s act s') : Confined D s' where
  wellFormed := by
    have hev : Step s ⟨s, act.1, act.2, s'⟩ s' := ⟨rfl, rfl, hstep.exec⟩
    exact step_wellFormed h.wellFormed hev
  separated := hstep.separated h.wellFormed h.separated

/-- The act is one of the domain `d`. -/
def ActsFor (D : Domains τ δ) (d : δ) (act : IpcOp τ × Except SystemError IpcReply) : Prop :=
  act.1.caller.map D.table = some d

instance [DecidableEq δ] : DecidablePred (ActsFor D d) :=
  fun _ => inferInstanceAs (Decidable (_ = _))

/-- Confined steps unwind for every domain. -/
theorem confined_unwinding (D : Domains τ δ) (d : δ) :
    Unwinding (ConfinedStep D) (ActsFor D d) (Confined D) (SameView D d) where
  trans _ _ _ := SameView.trans
  symm _ _ := SameView.symm
  keeps _ _ _ := Confined.step
  respects s act s' := by
    rintro ⟨-, hsep⟩ hforeign hstep
    obtain ⟨who, hcaller⟩ := hstep.admits.caller
    refine (hstep.onlyChanges hsep hcaller).sameView fun hd => hforeign ?_
    unfold ActsFor
    rw [hcaller, ← hd]
    rfl
  consistent s t act s' := by
    rintro ⟨-, hsep⟩ - hown hview hstep
    obtain ⟨who, hcaller⟩ := hstep.admits.caller
    obtain rfl : D.table who = d := by
      unfold ActsFor at hown
      rw [hcaller] at hown
      exact Option.some.inj hown
    have halike := exec_alike hsep hcaller hview
    rw [hstep.exec] at halike
    obtain ⟨t', hrun, hsame, -, -⟩ := halike.returned
    exact ⟨t', ⟨hstep.admits.congr hview.epArena hview.notifs.1, hrun⟩, hsame⟩

variable {setup : List (Event τ)} {acts : List (IpcOp τ × Except SystemError IpcReply)}

/-- From any reachable state with separated domains, no run of operations on behalf of the
tasks brings a capability out of its domain, into a table or into flight. -/
theorem separated_of_run (hsetup : Run Step boot setup s) (hsep : Separated D s)
    (hrun : Run (ConfinedStep D) s acts s') : Separated D s' := by
  have hconfined := hrun.invariant (I := Confined D) (fun _ _ _ => Confined.step)
    ⟨run_wellFormed hsetup, hsep⟩
  exact hconfined.separated

/-- The endpoint belongs to the domain `true`. -/
def twoDomains : Domains Bool Bool := ⟨id, fun _ => true, fun _ => true⟩

def receiverOnly : IpcSystem Bool :=
  endpointOnly.performed (.table true (.insertRoot ⟨.recv, .endpoint ⟨⟨0, 0⟩⟩⟩))

def neighbour : IpcSystem Bool :=
  receiverOnly.performed (.table false (.insertRoot ⟨.transfer, .debugConsole⟩))

def waiting : IpcSystem Bool := neighbour.performed (.recv true ⟨0, 0⟩)

omit [DecidableEq τ] [Build] in
theorem endpointOnly_separated : Separated twoDomains endpointOnly := by
  intro p c hcontent
  cases p with
  | table who hd =>
    obtain ⟨e, he, -⟩ := lookup_eq_ok_iff.mp (named_eq_some.mp hcontent)
    cases he.entry
  | flight i => cases hcontent

omit [DecidableEq τ] [Build] in
/-- A receiver registers while its neighbour is given a capability. -/
theorem waiting_run : ∃ (setup : List (Event Bool)) (acts : List _),
    @Run _ _ (@Step Bool _ ⟨true⟩) boot setup endpointOnly ∧ acts.length = 3 ∧
    @Run _ _ (@ConfinedStep Bool Bool _ ⟨true⟩ twoDomains) endpointOnly acts waiting := by
  have hendpoint :=
    performed_step (boot : IpcSystem Bool) (.createEndpoint ⟨7⟩) (.endpoint ⟨⟨0, 0⟩⟩)
    (by with_unfolding_all rfl)
  have hreceiver := performed_step endpointOnly
    (.table true (.insertRoot ⟨.recv, .endpoint ⟨⟨0, 0⟩⟩⟩)) (.table (.handle ⟨0, 0⟩))
    (by with_unfolding_all rfl)
  have hneighbour := performed_step receiverOnly
    (.table false (.insertRoot ⟨.transfer, .debugConsole⟩)) (.table (.handle ⟨0, 0⟩))
    (by with_unfolding_all rfl)
  have hrecv := performed_step neighbour (.recv true ⟨0, 0⟩) (.received .pending)
    (by with_unfolding_all rfl)
  let _ : Build := ⟨true⟩
  have hfirst : ConfinedStep twoDomains endpointOnly
      (.table true (.insertRoot ⟨.recv, .endpoint ⟨⟨0, 0⟩⟩⟩), .ok (.table (.handle ⟨0, 0⟩)))
      receiverOnly := ⟨fun _ => rfl, hreceiver.exec⟩
  have hsecond : ConfinedStep twoDomains receiverOnly
      (.table false (.insertRoot ⟨.transfer, .debugConsole⟩), .ok (.table (.handle ⟨0, 0⟩)))
      neighbour := ⟨trivial, hneighbour.exec⟩
  have hthird : ConfinedStep twoDomains neighbour
      (.recv true ⟨0, 0⟩, .ok (.received .pending)) waiting := ⟨rfl, hrecv.exec⟩
  have hacts := Run.cons hfirst (.cons hsecond (.single hthird))
  exact ⟨_, _, .single hendpoint, rfl, hacts⟩

omit [DecidableEq τ] [Build] in
theorem separated_of_run_waiting : ∃ acts : List _,
    @Run _ _ (@ConfinedStep Bool Bool _ ⟨true⟩ twoDomains) endpointOnly acts waiting ∧
    Separated twoDomains waiting := by
  obtain ⟨setup, acts, hsetup, _, hrun⟩ := waiting_run
  let _ : Build := ⟨true⟩
  exact ⟨acts, hrun, separated_of_run hsetup endpointOnly_separated hrun⟩

/-- A domain runs as if it were alone: without the operations of all the other domains, its
own ones return what they returned, and lead to the same tables, the same waiter cells and
the same notification words of the domain. -/
theorem noninterference [DecidableEq δ] (hsetup : Run Step boot setup s)
    (hsep : Separated D s) (hrun : Run (ConfinedStep D) s acts s') (d : δ) :
    ∃ t, Run (ConfinedStep D) s (acts.filter fun act => ActsFor D d act) t ∧
      SameView D d s' t := by
  have hconfined : Confined D s := ⟨run_wellFormed hsetup, hsep⟩
  exact (confined_unwinding D d).purge hrun hconfined hconfined (SameView.refl s)

omit [DecidableEq τ] [Build] in
/-- The receiver without its neighbour. -/
theorem noninterference_waiting : ∃ acts t,
    @Run _ _ (@ConfinedStep Bool Bool _ ⟨true⟩ twoDomains) endpointOnly acts waiting ∧
    @Run _ _ (@ConfinedStep Bool Bool _ ⟨true⟩ twoDomains) endpointOnly
      (acts.filter fun act => ActsFor twoDomains true act) t ∧
    SameView twoDomains true waiting t := by
  obtain ⟨setup, acts, hsetup, _, hrun⟩ := waiting_run
  let _ : Build := ⟨true⟩
  obtain ⟨t, halone, hview⟩ := noninterference hsetup endpointOnly_separated hrun true
  exact ⟨acts, t, hrun, halone, hview⟩

end IpcSystem

end Tyrne
