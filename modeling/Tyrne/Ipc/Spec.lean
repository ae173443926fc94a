import Tyrne.Cap.Contents
import Tyrne.Ipc.Ops

/-!
# What each IPC operation does

The state of an endpoint that the operations see is its effective state: what the
parallel array holds, or idle when that was written under another generation of the
slot. On a well-formed caller table an operation ends in one of few ways, listed by
`SendEnd`, `RecvEnd` and `CancelEnd`; only the ends that succeed change an effective
state or a table.
-/

namespace Tyrne

variable {h h' : EndpointHandle} {q q' : IpcQueues} {st : EndpointState}

/-- The handle names a live endpoint. -/
def Live (arena : EndpointArena) (h : EndpointHandle) : Prop := (arena.get h.slot).isSome

theorem live_iff {arena : EndpointArena} : Live arena h ↔
    h.slot.index.toNat < endpointArenaCapacity ∧
    (arena.slots h.slot.index).generation = h.slot.generation ∧
    (arena.slots h.slot.index).entry.isSome := by
  unfold Live Arena.get
  by_cases hbound : h.slot.index.toNat < endpointArenaCapacity
  · by_cases hgen : (arena.slots h.slot.index).generation = h.slot.generation <;>
      simp [hbound, hgen]
  · simp [hbound]

/-- At most one handle names the live endpoint of a slot. -/
theorem Live.unique {arena : EndpointArena} (hlive : Live arena h) (hlive' : Live arena h')
    (hindex : h.slot.index = h'.slot.index) : h = h' := by
  obtain ⟨-, hgen, -⟩ := live_iff.mp hlive
  obtain ⟨-, hgen', -⟩ := live_iff.mp hlive'
  obtain ⟨⟨i, g⟩⟩ := h
  obtain ⟨⟨i', g'⟩⟩ := h'
  dsimp only at *
  subst hindex
  rw [← hgen, ← hgen']

namespace IpcQueues

/-! ## Effective states -/

/-- The state of the endpoint after the stale-generation reset. -/
def effective (q : IpcQueues) (h : EndpointHandle) : EndpointState :=
  if q.slotGenerations h.slot.index = h.slot.generation then q.states h.slot.index else .idle

/-- The queues with the state of `h` set to `st`. -/
def put (q : IpcQueues) (h : EndpointHandle) (st : EndpointState) : IpcQueues where
  states := Function.update q.states h.slot.index st
  slotGenerations := Function.update q.slotGenerations h.slot.index h.slot.generation

/-- A capability would be lost by the reset. -/
def Undrained (q : IpcQueues) (h : EndpointHandle) : Prop :=
  q.slotGenerations h.slot.index ≠ h.slot.generation ∧ (q.states h.slot.index).cap ≠ none

@[simp] theorem effective_put : (q.put h st).effective h = st := by
  simp [effective, put]

theorem effective_put_of_ne (hne : h'.slot.index ≠ h.slot.index) :
    (q.put h st).effective h' = q.effective h' := by
  simp [effective, put, hne]

theorem effective_put_live {arena : EndpointArena} (hlive : Live arena h)
    (hlive' : Live arena h') :
    (q.put h st).effective h' = if h' = h then st else q.effective h' := by
  by_cases heq : h' = h
  · subst heq
    rw [effective_put, if_pos rfl]
  · rw [effective_put_of_ne fun hindex => heq (hlive'.unique hlive hindex), if_neg heq]

@[simp] theorem put_put {st' : EndpointState} : (q.put h st).put h st' = q.put h st' := by
  simp [put]

theorem effective_put_other {arena : EndpointArena} (hlive : Live arena h)
    (hlive' : Live arena h') (hne : h' ≠ h) : (q.put h st).effective h' = q.effective h' := by
  rw [effective_put_live hlive hlive', if_neg hne]

/-- The two queues agree on every live endpoint. -/
def Agree (arena : EndpointArena) (q q' : IpcQueues) : Prop :=
  ∀ h, Live arena h → q'.effective h = q.effective h

/-- Writing back the effective state of a live endpoint is not seen by any. -/
theorem agree_put_effective {arena : EndpointArena} (hlive : Live arena h) :
    Agree arena q (q.put h (q.effective h)) := by
  intro h' hlive'
  rw [effective_put_live hlive hlive']
  split
  · next heq => rw [heq]
  · rfl

variable [Build]

/-- The reset, for a handle within the array: a debug build may refuse to drop a
capability; otherwise the slot holds the effective state. -/
theorem resetIfStaleGeneration_run (hbound : h.slot.index.toNat < endpointArenaCapacity) :
    (q.Undrained h ∧ ∃ msg,
      (resetIfStaleGeneration h).run q = .panic (.assertion msg)) ∨
    (resetIfStaleGeneration h).run q = .ok h.slot.index (q.put h (q.effective h)) := by
  have hgenRun : (readCell endpointArenaCapacity slotGenerations h.slot.index :
      QueuesM _).run q = .ok (q.slotGenerations h.slot.index) q := if_pos hbound
  have hstateRun : (readCell endpointArenaCapacity states h.slot.index :
      QueuesM _).run q = .ok (q.states h.slot.index) q := if_pos hbound
  unfold resetIfStaleGeneration
  dsimp only
  rw [Prog.bind_ok hgenRun]
  by_cases hgen : q.slotGenerations h.slot.index = h.slot.generation
  · right
    rw [if_neg (not_not.mpr hgen)]
    have hput : q.put h (q.effective h) = q := by
      unfold put effective
      rw [if_pos hgen, ← hgen, Function.update_eq_self, Function.update_eq_self]
    rw [hput]
    rfl
  · rw [if_pos hgen, Prog.bind_ok hstateRun]
    have hreset : (do setState h.slot.index .idle
                      setGeneration h.slot.index h.slot.generation
                      return h.slot.index : QueuesM Index).run q =
        .ok h.slot.index (q.put h (q.effective h)) := by
      simp [setState, setGeneration, writeCell, Prog.bind_run, hbound, put, effective, hgen]
    by_cases hcap : (q.states h.slot.index).cap = none
    · right
      rw [debugAssert_pos hcap, Prog.pure_bind_run, hreset]
    · cases hbuild : Build.debugAssertions with
      | true =>
        left
        rw [debugAssert_neg hbuild hcap, Prog.panic_bind_run]
        exact ⟨⟨hgen, hcap⟩, _, rfl⟩
      | false =>
        right
        have hskip : ∀ msg, (debugAssert ((q.states h.slot.index).cap = none) msg :
            QueuesM Unit) = pure () := fun msg => by simp [debugAssert, hbuild]
        rw [hskip, Prog.pure_bind_run, hreset]

theorem peekState_run (hbound : h.slot.index.toNat < endpointArenaCapacity) :
    (q.Undrained h ∧ ∃ msg, (peekState h).run q = .panic (.assertion msg)) ∨
    (peekState h).run q = .ok (q.effective h) (q.put h (q.effective h)) := by
  unfold peekState
  rcases resetIfStaleGeneration_run (q := q) hbound with ⟨hun, msg, hrun⟩ | hrun
  · exact Or.inl ⟨hun, msg, Prog.bind_panic hrun⟩
  · right
    rw [Prog.bind_ok hrun]
    simp [readCell, hbound, put]

/-- Once the slot is settled, taking its state leaves it idle. -/
theorem takeState_run (hbound : h.slot.index.toNat < endpointArenaCapacity) :
    (takeState h).run (q.put h st) = .ok st (q.put h .idle) := by
  have hreset : (resetIfStaleGeneration h).run (q.put h st) =
      .ok h.slot.index (q.put h st) := by
    rcases resetIfStaleGeneration_run (q := q.put h st) hbound with ⟨⟨hgen, -⟩, -⟩ | hrun
    · simp [put] at hgen
    · rwa [effective_put, put_put] at hrun
  unfold takeState
  rw [Prog.bind_ok hreset]
  simp [readCell, setState, writeCell, Prog.bind_run, hbound, put]

omit [Build] in
theorem setState_run (hbound : h.slot.index.toNat < endpointArenaCapacity)
    {st' : EndpointState} :
    (setState h.slot.index st').run (q.put h st) = .ok () (q.put h st') := by
  simp [setState, writeCell, hbound, put]

end IpcQueues

/-! ## The checks in front -/

open IpcCall IpcQueues CapabilityTable

variable {s : IpcCall} {epCap : CapHandle} {required : CapRights} {transfer : Option CapHandle}
  {msg : Message}

section Zoom

variable {α : Type} {a : α}

theorem onQueues_ok {m : QueuesM α} (hm : m.run s.queues = .ok a q) :
    (onQueues m).run s = .ok a { s with queues := q } := Prog.zoom_ok hm

theorem onQueues_panic {m : QueuesM α} {p : Panic} (hm : m.run s.queues = .panic p) :
    (onQueues m).run s = .panic p := Prog.zoom_panic hm

theorem onTable_ok {m : TableM α} {err : IpcError} {t : CapabilityTable}
    (hm : m.run s.table = .ok a t) :
    (onTable err m).run s = .ok a { s with table := t } := Prog.zoom_ok hm

theorem onTable_err {m : TableM α} {err : IpcError} {e : CapError} {t : CapabilityTable}
    (hm : m.run s.table = .err e t) :
    (onTable err m).run s = .err err { s with table := t } := Prog.zoom_err hm

end Zoom

/-- The handle names an endpoint capability with the required right. -/
def Targets (t : CapabilityTable) (epCap : CapHandle) (required : CapRights)
    (h : EndpointHandle) : Prop :=
  ∃ c, (lookup epCap).run t = .ok c t ∧ c.object = .endpoint h ∧ c.rights.contains required

theorem Targets.object_eq {t : CapabilityTable} {c : Capability}
    (ht : Targets t epCap required h) (hlookup : (lookup epCap).run t = .ok c t) :
    c.object = .endpoint h := by
  obtain ⟨c', hc', hobj, -⟩ := ht
  rw [hlookup] at hc'
  cases hc'
  exact hobj

theorem Targets.rights {t : CapabilityTable} {c : Capability}
    (ht : Targets t epCap required h) (hlookup : (lookup epCap).run t = .ok c t) :
    c.rights.contains required := by
  obtain ⟨c', hc', -, hright⟩ := ht
  rw [hlookup] at hc'
  cases hc'
  exact hright

theorem Targets.unique {t : CapabilityTable} {required' : CapRights}
    (ht : Targets t epCap required h) (ht' : Targets t epCap required' h') : h = h' := by
  obtain ⟨c, hc, hobj, -⟩ := ht
  have hobj' := ht'.object_eq hc
  rw [hobj] at hobj'
  cases hobj'
  rfl

/-- The endpoint that the handle names with the required right. -/
def targeted (t : CapabilityTable) (epCap : CapHandle) (required : CapRights) :
    Option EndpointHandle :=
  match (lookup epCap).run t with
  | .ok ⟨rights, .endpoint h⟩ _ => if rights.contains required then some h else none
  | _ => none

theorem Targets.targeted {t : CapabilityTable} (ht : Targets t epCap required h) :
    targeted t epCap required = some h := by
  obtain ⟨⟨rights, object⟩, hlookup, rfl, hright⟩ := ht
  simp [Tyrne.targeted, hlookup, hright]

/-- A lookup that only sees the table `t`. -/
theorem onTable_lookup (t : CapabilityTable) (err : IpcError) (hd : CapHandle) :
    (∃ c, (lookup hd).run t = .ok c t ∧
      ∀ s : IpcCall, s.table = t → (onTable err (lookup hd)).run s = .ok c s) ∨
    (∀ c, (lookup hd).run t ≠ .ok c t) ∧
      ∀ s : IpcCall, s.table = t → (onTable err (lookup hd)).run s = .err err s := by
  rcases lookup_cases t hd with ⟨e, -, hrun⟩ | ⟨-, hrun⟩
  · refine Or.inl ⟨_, hrun, fun s hs => ?_⟩
    subst hs
    exact onTable_ok hrun
  · refine Or.inr ⟨fun c hc => ?_, fun s hs => ?_⟩
    · rw [hrun] at hc
      cases hc
    · subst hs
      exact onTable_err hrun

/-- The check of the endpoint capability is decided by the table. -/
theorem validateEpCap_cases (t : CapabilityTable) (epCap : CapHandle) (required : CapRights) :
    (∃ h, Targets t epCap required h ∧
      ∀ s : IpcCall, s.table = t → (validateEpCap epCap required).run s = .ok h s) ∨
    (∀ h, ¬ Targets t epCap required h) ∧
      ∃ err, ∀ s : IpcCall, s.table = t → (validateEpCap epCap required).run s = .err err s := by
  unfold validateEpCap
  rcases onTable_lookup t .staleHandle epCap with ⟨c, hlookup, hrun⟩ | ⟨hnone, hrun⟩
  · have hkind : (∀ h, c.object ≠ .endpoint h) → ∀ h, ¬ Targets t epCap required h := by
      intro hne h htarget
      exact hne h (htarget.object_eq hlookup)
    have hother : ∀ {m : Capability → IpcM EndpointHandle} (err : IpcError),
        (∀ s, (m c).run s = .err err s) → ∃ err, ∀ s : IpcCall, s.table = t →
          (onTable .staleHandle (lookup epCap) >>= m).run s = .err err s := by
      intro m err hm
      refine ⟨err, fun s hs => ?_⟩
      rw [Prog.bind_ok (hrun s hs), hm]
    cases hobj : c.object with
    | endpoint h =>
      by_cases hright : c.rights.contains required
      · left
        refine ⟨h, ⟨c, hlookup, hobj, hright⟩, fun s hs => ?_⟩
        rw [Prog.bind_ok (hrun s hs), hobj]
        dsimp only
        rw [Prog.require_pos hright]
        rfl
      · right
        refine ⟨fun h' htarget => hright (htarget.rights hlookup), hother .missingRight fun s => ?_⟩
        rw [hobj]
        dsimp only
        rw [Prog.require_neg hright]
        rfl
    | task =>
      refine Or.inr ⟨hkind (by simp [hobj]), hother .wrongObjectKind fun s => ?_⟩
      rw [hobj]
      rfl
    | notification =>
      refine Or.inr ⟨hkind (by simp [hobj]), hother .wrongObjectKind fun s => ?_⟩
      rw [hobj]
      rfl
    | addressSpace =>
      refine Or.inr ⟨hkind (by simp [hobj]), hother .wrongObjectKind fun s => ?_⟩
      rw [hobj]
      rfl
    | debugConsole =>
      refine Or.inr ⟨hkind (by simp [hobj]), hother .wrongObjectKind fun s => ?_⟩
      rw [hobj]
      rfl
  · refine Or.inr ⟨fun h htarget => ?_, _, fun s hs => Prog.bind_err (hrun s hs)⟩
    obtain ⟨c, hlookup, -⟩ := htarget
    exact hnone c hlookup

theorem validateEpCap_run (s : IpcCall) (epCap : CapHandle) (required : CapRights) :
    (∃ h, Targets s.table epCap required h ∧
      (validateEpCap epCap required).run s = .ok h s) ∨
    (∀ h, ¬ Targets s.table epCap required h) ∧
      ∃ err, (validateEpCap epCap required).run s = .err err s := by
  rcases validateEpCap_cases s.table epCap required with ⟨h, htarget, hrun⟩ | ⟨hnone, err, hrun⟩
  · exact Or.inl ⟨h, htarget, hrun s rfl⟩
  · exact Or.inr ⟨hnone, err, hrun s rfl⟩

/-- The nominated capability may be transferred. -/
def Transferable (t : CapabilityTable) (transfer : Option CapHandle) : Prop :=
  ∀ xfer, transfer = some xfer →
    ∃ c, (lookup xfer).run t = .ok c t ∧ c.rights.contains .transfer

/-- The check of the transfer is decided by the table. -/
theorem validateTransfer_cases (t : CapabilityTable) (transfer : Option CapHandle) :
    (Transferable t transfer ∧
      ∀ s : IpcCall, s.table = t → (validateTransfer transfer).run s = .ok () s) ∨
    ∃ err, ∀ s : IpcCall, s.table = t → (validateTransfer transfer).run s = .err err s := by
  cases transfer with
  | none =>
    left
    refine ⟨?_, fun _ _ => rfl⟩
    rintro _ ⟨⟩
  | some xfer =>
    unfold validateTransfer
    rcases onTable_lookup t .invalidTransferCap xfer with ⟨c, hlookup, hrun⟩ | ⟨-, hrun⟩
    · by_cases hright : c.rights.contains .transfer
      · refine Or.inl ⟨?_, fun s hs => ?_⟩
        · rintro _ ⟨⟩
          exact ⟨c, hlookup, hright⟩
        · rw [Prog.bind_ok (hrun s hs), Prog.require_pos hright]
          rfl
      · refine Or.inr ⟨.invalidTransferCap, fun s hs => ?_⟩
        rw [Prog.bind_ok (hrun s hs), Prog.require_neg hright]
        rfl
    · exact Or.inr ⟨_, fun s hs => Prog.bind_err (hrun s hs)⟩

theorem validateTransfer_run (s : IpcCall) (transfer : Option CapHandle) :
    (Transferable s.table transfer ∧ (validateTransfer transfer).run s = .ok () s) ∨
    ∃ err, (validateTransfer transfer).run s = .err err s := by
  rcases validateTransfer_cases s.table transfer with ⟨hxfer, hrun⟩ | ⟨err, hrun⟩
  · exact Or.inl ⟨hxfer, hrun s rfl⟩
  · exact Or.inr ⟨err, hrun s rfl⟩

theorem requireLive_run (s : IpcCall) (h : EndpointHandle) :
    (Live s.epArena h ∧ (requireLive h).run s = .ok () s) ∨
    ¬ Live s.epArena h ∧ ∃ err, (requireLive h).run s = .err err s := by
  unfold requireLive Live
  cases hget : s.epArena.get h.slot with
  | none => exact Or.inr ⟨by simp, .staleHandle, by simp [Prog.bind_run, hget]⟩
  | some ep => exact Or.inl ⟨rfl, by simp [Prog.bind_run, hget]⟩

theorem Live.bound {arena : EndpointArena} (hlive : Live arena h) :
    h.slot.index.toNat < endpointArenaCapacity := (live_iff.mp hlive).1

/-! ## Moving a capability -/

variable [Build]

/-- `owned` is what the nominated transfer takes out of the table `t`, leaving `t'`. -/
inductive Taken (t : CapabilityTable) :
    Option CapHandle → Option Capability → CapabilityTable → Prop
  | nothing : Taken t none none t
  | cap {xfer : CapHandle} {c : Capability} {t' : CapabilityTable} :
      (capTake xfer).run t = .ok c t' → Taken t (some xfer) (some c) t'

/-- `xfer` is the handle under which the capability in flight is installed in the table
`t`, giving `t'`. -/
inductive Installed (t : CapabilityTable) :
    Option Capability → Option CapHandle → CapabilityTable → Prop
  | nothing : Installed t none none t
  | cap {c : Capability} {xfer : CapHandle} {t' : CapabilityTable} :
      (insertRoot c).run t = .ok xfer t' → Installed t (some c) (some xfer) t'

theorem Taken.wellFormed {t t' : CapabilityTable} {owned : Option Capability}
    (htaken : Taken t transfer owned t') (hwf : t.WellFormed) : t'.WellFormed := by
  cases htaken with
  | nothing => exact hwf
  | cap hrun => exact (capTake_moves hwf hrun).1

omit [Build] in
theorem Installed.wellFormed {t t' : CapabilityTable} {cap : Option Capability}
    {xfer : Option CapHandle} (hinst : Installed t cap xfer t') (hwf : t.WellFormed) :
    t'.WellFormed := by
  cases hinst with
  | nothing => exact hwf
  | cap hrun => exact (insertRoot_moves hwf hrun).1

theorem takeCapIfSome_run (hwf : s.table.WellFormed) (transfer : Option CapHandle) :
    (∃ owned t', Taken s.table transfer owned t' ∧
      (takeCapIfSome transfer).run s = .ok owned { s with table := t' }) ∨
    ∃ err, (takeCapIfSome transfer).run s = .err err s := by
  cases transfer with
  | none => exact Or.inl ⟨none, s.table, .nothing, rfl⟩
  | some xfer =>
    unfold takeCapIfSome
    rcases capTake_run hwf xfer with ⟨err, -, hrun⟩ | ⟨e, t', -, -, -, -, hrun⟩
    · exact Or.inr ⟨_, Prog.bind_err (onTable_err hrun)⟩
    · exact Or.inl ⟨_, _, .cap hrun, Prog.bind_ok (onTable_ok hrun)⟩

omit [Build] in
/-- With room in the table, the capability in flight is always installed. -/
theorem installCapIfSome_run (hwf : s.table.WellFormed) (cap : Option Capability)
    (hroom : ¬ (cap ≠ none ∧ s.table.isFull)) :
    ∃ xfer t', Installed s.table cap xfer t' ∧
      (installCapIfSome cap).run s = .ok xfer { s with table := t' } := by
  cases cap with
  | none => exact ⟨none, s.table, .nothing, rfl⟩
  | some c =>
    unfold installCapIfSome
    rcases insertRoot_run hwf c with ⟨hfull, -⟩ | ⟨n, -, hrun⟩
    · exact absurd ⟨by simp, hfull⟩ hroom
    · exact ⟨_, _, .cap hrun, Prog.bind_ok (onTable_ok hrun)⟩

/-! ## The operations -/

/-- The queues of a call that was refused: untouched, or settled for a live endpoint. -/
inductive Refused (arena : EndpointArena) (q : IpcQueues) : IpcQueues → Prop
  | early : Refused arena q q
  | settled {h : EndpointHandle} : Live arena h → Refused arena q (q.put h (q.effective h))

omit [Build] in
theorem Refused.agree {arena : EndpointArena} (hq : Refused arena q q') : Agree arena q q' := by
  cases hq with
  | early => exact fun _ _ => rfl
  | settled hlive => exact agree_put_effective hlive

/-- How `ipcSend` ends. -/
inductive SendEnd (s : IpcCall) (epCap : CapHandle) (msg : Message)
    (transfer : Option CapHandle) : Result IpcCall IpcError SendOutcome → Prop
  | refused {err : IpcError} {q : IpcQueues} : Refused s.epArena s.queues q →
      SendEnd s epCap msg transfer (.err err { s with queues := q })
  | undrained {h : EndpointHandle} {message : String} : Live s.epArena h →
      s.queues.Undrained h → SendEnd s epCap msg transfer (.panic (.assertion message))
  | delivered {h : EndpointHandle} {owned : Option Capability} {t' : CapabilityTable} :
      Targets s.table epCap .send h → Live s.epArena h →
      s.queues.effective h = .recvWaiting → Transferable s.table transfer →
      Taken s.table transfer owned t' → SendEnd s epCap msg transfer
        (.ok .delivered ⟨s.epArena, s.queues.put h (.recvComplete msg owned), t'⟩)
  | enqueued {h : EndpointHandle} {owned : Option Capability} {t' : CapabilityTable} :
      Targets s.table epCap .send h → Live s.epArena h →
      s.queues.effective h = .idle → Transferable s.table transfer →
      Taken s.table transfer owned t' → SendEnd s epCap msg transfer
        (.ok .enqueued ⟨s.epArena, s.queues.put h (.sendPending msg owned), t'⟩)

theorem ipcSend_end (hwf : s.table.WellFormed) (epCap : CapHandle) (msg : Message)
    (transfer : Option CapHandle) :
    SendEnd s epCap msg transfer ((ipcSend epCap msg transfer).run s) := by
  unfold ipcSend
  rcases validateEpCap_run s epCap .send with ⟨h, htarget, hrun⟩ | ⟨-, err, hrun⟩
  swap
  · rw [Prog.bind_err hrun]
    exact .refused .early
  rw [Prog.bind_ok hrun]
  rcases validateTransfer_run s transfer with ⟨hxfer, hrun⟩ | ⟨err, hrun⟩
  swap
  · rw [Prog.bind_err hrun]
    exact .refused .early
  rw [Prog.bind_ok hrun]
  rcases requireLive_run s h with ⟨hlive, hrun⟩ | ⟨-, err, hrun⟩
  swap
  · rw [Prog.bind_err hrun]
    exact .refused .early
  rw [Prog.bind_ok hrun]
  rcases peekState_run (q := s.queues) hlive.bound with ⟨hun, message, hrun⟩ | hrun
  · rw [Prog.bind_panic (onQueues_panic hrun)]
    exact .undrained hlive hun
  rw [Prog.bind_ok (onQueues_ok hrun)]
  by_cases hheld : (s.queues.effective h).held = none
  swap
  · rw [Prog.require_neg hheld]
    exact .refused (.settled hlive)
  rw [Prog.require_pos hheld, Prog.pure_bind_run]
  -- the call with the endpoint settled; the table is still the caller's
  rcases takeCapIfSome_run (s := { s with queues := s.queues.put h (s.queues.effective h) })
    hwf transfer with ⟨owned, t', htaken, hrun⟩ | ⟨err, hrun⟩
  swap
  · rw [Prog.bind_err hrun]
    exact .refused (.settled hlive)
  rw [Prog.bind_ok hrun, Prog.bind_ok (onQueues_ok (takeState_run hlive.bound))]
  cases hstate : s.queues.effective h with
  | sendPending => simp [hstate, EndpointState.held] at hheld
  | recvComplete => simp [hstate, EndpointState.held] at hheld
  | recvWaiting =>
    dsimp only
    rw [Prog.bind_ok (onQueues_ok (setState_run hlive.bound))]
    exact .delivered htarget hlive hstate hxfer htaken
  | idle =>
    dsimp only
    rw [Prog.bind_ok (onQueues_ok (setState_run hlive.bound))]
    exact .enqueued htarget hlive hstate hxfer htaken

/-- What makes a send deliver: the handle names a live endpoint to send on, whose receiver
is waiting, and the nominated capability may be transferred and has no children. -/
structure Deliverable (s : IpcCall) (epCap : CapHandle) (transfer : Option CapHandle)
    (h : EndpointHandle) : Prop where
  target : Targets s.table epCap .send h
  live : Live s.epArena h
  waiting : s.queues.effective h = .recvWaiting
  transferable : Transferable s.table transfer
  leaf : ∀ xfer e, transfer = some xfer → Resolves s.table xfer e → e.firstChild = none

theorem Deliverable.takes {t : CapabilityTable} (hxfer : Transferable t transfer)
    (hleaf : ∀ xfer e, transfer = some xfer → Resolves t xfer e → e.firstChild = none)
    (hwf : t.WellFormed) (htable : s.table = t) :
    ∃ owned t', (takeCapIfSome transfer).run s = .ok owned { s with table := t' } := by
  subst htable
  cases transfer with
  | none => exact ⟨none, s.table, rfl⟩
  | some xfer =>
    obtain ⟨c, hlookup, -⟩ := hxfer xfer rfl
    obtain ⟨e, he, -⟩ := lookup_eq_ok_iff.mp hlookup
    have hchild := hleaf xfer e rfl he
    unfold takeCapIfSome
    rcases capTake_run hwf xfer with ⟨err, hfirst, -⟩ | ⟨e', t', -, -, -, -, hrun⟩
    · unfold dropChecks at hfirst
      rw [firstError_pass he.handleCheck, firstError_pass] at hfirst
      · cases hfirst
      · rw [he.leafCheck, decide_eq_true hchild]
    · exact ⟨_, _, Prog.bind_ok (onTable_ok hrun)⟩

theorem Deliverable.delivers {h : EndpointHandle} (hdel : Deliverable s epCap transfer h)
    (hwf : s.table.WellFormed) (hdrained : ¬ s.queues.Undrained h) (msg : Message) :
    ∃ call, (ipcSend epCap msg transfer).run s = .ok .delivered call := by
  obtain ⟨htarget, hlive, hwaiting, hxfer, hleaf⟩ := hdel
  unfold ipcSend
  rcases validateEpCap_run s epCap .send with ⟨h', htarget', hrun⟩ | ⟨hnone, -⟩
  swap
  · exact absurd htarget (hnone h)
  obtain rfl := htarget.unique htarget'
  rw [Prog.bind_ok hrun]
  have hvalid : (validateTransfer transfer).run s = .ok () s := by
    cases transfer with
    | none => rfl
    | some xfer =>
      obtain ⟨c, hlookup, hright⟩ := hxfer xfer rfl
      have hok : (IpcCall.onTable .invalidTransferCap (CapabilityTable.lookup xfer)).run s =
          .ok c s := onTable_ok hlookup
      unfold validateTransfer
      rw [Prog.bind_ok hok, Prog.require_pos hright]
      rfl
  rw [Prog.bind_ok hvalid]
  rcases requireLive_run s h with ⟨-, hrun⟩ | ⟨hdead, -⟩
  swap
  · exact absurd hlive hdead
  rw [Prog.bind_ok hrun]
  rcases peekState_run (q := s.queues) hlive.bound with ⟨hun, -⟩ | hrun
  · exact absurd hun hdrained
  have hheld : (s.queues.effective h).held = none := by
    rw [hwaiting]
    rfl
  rw [Prog.bind_ok (onQueues_ok hrun), Prog.require_pos hheld, Prog.pure_bind_run]
  obtain ⟨owned, t', hrun⟩ := Deliverable.takes
    (s := { s with queues := s.queues.put h (s.queues.effective h) }) hxfer hleaf hwf rfl
  rw [Prog.bind_ok hrun, Prog.bind_ok (onQueues_ok (takeState_run hlive.bound)), hwaiting]
  dsimp only
  rw [Prog.bind_ok (onQueues_ok (setState_run hlive.bound))]
  exact ⟨_, rfl⟩

theorem SendEnd.deliverable {c : IpcCall} (hwf : s.table.WellFormed)
    (hend : SendEnd s epCap msg transfer (.ok .delivered c)) :
    ∃ h, Deliverable s epCap transfer h := by
  cases hend with
  | @delivered h _ _ htarget hlive hwaiting hxfer htaken =>
    refine ⟨h, htarget, hlive, hwaiting, hxfer, fun xfer e hsome he => ?_⟩
    subst hsome
    cases htaken with
    | cap hrun =>
      rcases capTake_run hwf xfer with ⟨err, -, herr⟩ | ⟨e', t', -, he', hleaf, -, -⟩
      · rw [hrun] at herr
        cases herr
      · rw [he.unique he']
        exact hleaf

/-- A receive that may be refused: the handle names no live endpoint to receive on, the
capability in flight does not fit, or a receiver is waiting already. -/
def RecvRefusable (s : IpcCall) (epCap : CapHandle) : Prop :=
  ∀ h, Targets s.table epCap .recv h → Live s.epArena h →
    ((s.queues.effective h).cap ≠ none ∧ s.table.isFull) ∨
      s.queues.effective h = .recvWaiting

/-- How `ipcRecv` ends. -/
inductive RecvEnd (s : IpcCall) (epCap : CapHandle) :
    Result IpcCall IpcError RecvOutcome → Prop
  | refused {err : IpcError} {q : IpcQueues} : Refused s.epArena s.queues q →
      RecvRefusable s epCap → RecvEnd s epCap (.err err { s with queues := q })
  | undrained {h : EndpointHandle} {message : String} : Live s.epArena h →
      s.queues.Undrained h → RecvEnd s epCap (.panic (.assertion message))
  | received {h : EndpointHandle} {msg : Message} {cap : Option Capability}
      {xfer : Option CapHandle} {t' : CapabilityTable} :
      Targets s.table epCap .recv h → Live s.epArena h →
      (s.queues.effective h).held = some (msg, cap) → Installed s.table cap xfer t' →
      RecvEnd s epCap (.ok (.received msg xfer) ⟨s.epArena, s.queues.put h .idle, t'⟩)
  | registered {h : EndpointHandle} : Targets s.table epCap .recv h → Live s.epArena h →
      s.queues.effective h = .idle →
      RecvEnd s epCap (.ok .pending { s with queues := s.queues.put h .recvWaiting })

theorem ipcRecv_end (hwf : s.table.WellFormed) (epCap : CapHandle) :
    RecvEnd s epCap ((ipcRecv epCap).run s) := by
  unfold ipcRecv
  rcases validateEpCap_run s epCap .recv with ⟨h, htarget, hrun⟩ | ⟨hnone, err, hrun⟩
  swap
  · rw [Prog.bind_err hrun]
    exact .refused .early fun h htarget _ => absurd htarget (hnone h)
  rw [Prog.bind_ok hrun]
  rcases requireLive_run s h with ⟨hlive, hrun⟩ | ⟨hdead, err, hrun⟩
  swap
  · rw [Prog.bind_err hrun]
    exact .refused .early fun h' htarget' hlive => absurd (htarget.unique htarget' ▸ hlive) hdead
  rw [Prog.bind_ok hrun]
  rcases peekState_run (q := s.queues) hlive.bound with ⟨hun, message, hrun⟩ | hrun
  · rw [Prog.bind_panic (onQueues_panic hrun)]
    exact .undrained hlive hun
  rw [Prog.bind_ok (onQueues_ok hrun), Prog.get_bind_run]
  by_cases hroom : ¬ ((s.queues.effective h).cap ≠ none ∧ s.table.isFull)
  swap
  · rw [Prog.require_neg hroom]
    refine .refused (.settled hlive) fun h' htarget' _ => Or.inl ?_
    rw [← htarget.unique htarget']
    exact not_not.mp hroom
  rw [Prog.require_pos hroom, Prog.pure_bind_run,
    Prog.bind_ok (onQueues_ok (takeState_run hlive.bound))]
  cases hstate : s.queues.effective h with
  | sendPending msg cap =>
    rw [hstate] at hroom
    obtain ⟨xfer, t', hinst, hrun⟩ :=
      installCapIfSome_run (s := { s with queues := s.queues.put h .idle }) hwf cap hroom
    dsimp only
    rw [Prog.bind_ok hrun]
    exact .received htarget hlive (by rw [hstate]; rfl) hinst
  | recvComplete msg cap =>
    rw [hstate] at hroom
    obtain ⟨xfer, t', hinst, hrun⟩ :=
      installCapIfSome_run (s := { s with queues := s.queues.put h .idle }) hwf cap hroom
    dsimp only
    rw [Prog.bind_ok hrun]
    exact .received htarget hlive (by rw [hstate]; rfl) hinst
  | idle =>
    dsimp only
    rw [Prog.bind_ok (onQueues_ok (setState_run hlive.bound))]
    exact .registered htarget hlive hstate
  | recvWaiting =>
    dsimp only
    rw [Prog.bind_ok (onQueues_ok (setState_run hlive.bound))]
    refine .refused (hstate ▸ .settled hlive) fun h' htarget' _ => Or.inr ?_
    rw [← htarget.unique htarget']
    exact hstate

/-- How `ipcCancelRecv` ends. -/
inductive CancelEnd (s : IpcCall) (epCap : CapHandle) :
    Result IpcCall IpcError Unit → Prop
  | refused {err : IpcError} :
      (∀ h, Targets s.table epCap .recv h → ¬ Live s.epArena h) →
      CancelEnd s epCap (.err err s)
  | undrained {h : EndpointHandle} {message : String} : Live s.epArena h →
      s.queues.Undrained h → CancelEnd s epCap (.panic (.assertion message))
  | cancelled {h : EndpointHandle} : Targets s.table epCap .recv h → Live s.epArena h →
      s.queues.effective h = .recvWaiting →
      CancelEnd s epCap (.ok () { s with queues := s.queues.put h .idle })
  | nothing {h : EndpointHandle} {q : IpcQueues} : Targets s.table epCap .recv h →
      s.queues.effective h ≠ .recvWaiting → Refused s.epArena s.queues q →
      CancelEnd s epCap (.ok () { s with queues := q })

theorem ipcCancelRecv_end (s : IpcCall) (epCap : CapHandle) :
    CancelEnd s epCap ((ipcCancelRecv epCap).run s) := by
  unfold ipcCancelRecv
  rcases validateEpCap_run s epCap .recv with ⟨h, htarget, hrun⟩ | ⟨hnone, err, hrun⟩
  swap
  · rw [Prog.bind_err hrun]
    exact .refused fun h htarget => absurd htarget (hnone h)
  rw [Prog.bind_ok hrun]
  rcases requireLive_run s h with ⟨hlive, hrun⟩ | ⟨hdead, err, hrun⟩
  swap
  · rw [Prog.bind_err hrun]
    exact .refused fun h' htarget' => htarget.unique htarget' ▸ hdead
  rw [Prog.bind_ok hrun]
  rcases peekState_run (q := s.queues) hlive.bound with ⟨hun, message, hrun⟩ | hrun
  · rw [Prog.bind_panic (onQueues_panic hrun)]
    exact .undrained hlive hun
  rw [Prog.bind_ok (onQueues_ok hrun)]
  by_cases hwaiting : s.queues.effective h = .recvWaiting
  · rw [if_pos hwaiting]
    rw [onQueues_ok (setState_run hlive.bound)]
    exact .cancelled htarget hlive hwaiting
  · rw [if_neg hwaiting]
    exact .nothing htarget hwaiting (.settled hlive)

end Tyrne
