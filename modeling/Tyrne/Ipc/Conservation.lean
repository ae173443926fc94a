import Tyrne.Ipc.Runs

/-!
# Conservation of messages and capabilities

While no endpoint is destroyed with a message in it, a message that a send accepted is
held by its endpoint until one receive returns it, and a transferred capability is in
exactly one place: the sender's table, the endpoint or the receiver's table.

The invariant behind both is `Owned`: a message in the parallel state array always
belongs to the endpoint that is live in its slot, so the stale-generation reset never
drops one.
-/

namespace Tyrne

open CapabilityTable IpcQueues

variable {h h' : EndpointHandle} {q q' : IpcQueues} {st : EndpointState} {arena : EndpointArena}
  {msg : Message}

/-! ## Messages belong to live endpoints -/

/-- Every held message belongs to the live endpoint of its slot. -/
def Owned (arena : EndpointArena) (q : IpcQueues) : Prop :=
  ∀ i, (q.states i).held ≠ none → Live arena ⟨⟨i, q.slotGenerations i⟩⟩

namespace Owned

variable (howned : Owned arena q) (hlive : Live arena h)
include howned

/-- What the slot of a live endpoint holds is what the endpoint holds. -/
theorem held_eq (hlive : Live arena h) :
    (q.states h.slot.index).held = (q.effective h).held := by
  unfold effective
  by_cases hgen : q.slotGenerations h.slot.index = h.slot.generation
  · rw [if_pos hgen]
  · rw [if_neg hgen]
    by_contra hheld
    have hother := howned h.slot.index hheld
    have heq := hother.unique hlive rfl
    apply hgen
    rw [← heq]

theorem live_of_held (hheld : (q.effective h).held ≠ none) : Live arena h := by
  unfold effective at hheld
  by_cases hgen : q.slotGenerations h.slot.index = h.slot.generation
  · rw [if_pos hgen] at hheld
    have hother := howned h.slot.index hheld
    rwa [hgen] at hother
  · rw [if_neg hgen] at hheld
    exact absurd rfl hheld

theorem not_undrained (hlive : Live arena h) : ¬ q.Undrained h := by
  rintro ⟨hgen, hcap⟩
  have hheld : (q.states h.slot.index).held ≠ none := by
    intro hnone
    simp [EndpointState.cap, hnone] at hcap
  have heq := (howned h.slot.index hheld).unique hlive rfl
  apply hgen
  rw [← heq]

include hlive

theorem put : Owned arena (q.put h st) := by
  intro i hheld
  by_cases hi : i = h.slot.index
  · subst hi
    simpa [IpcQueues.put] using hlive
  · simp only [IpcQueues.put, Function.update_of_ne hi] at hheld ⊢
    exact howned i hheld

/-- Rewriting the state of one live endpoint changes what that endpoint holds only. -/
theorem held_put (h' : EndpointHandle) :
    ((q.put h st).effective h').held = if h' = h then st.held else (q.effective h').held := by
  by_cases heq : h' = h
  · subst heq
    rw [effective_put, if_pos rfl]
  rw [if_neg heq]
  by_cases hindex : h'.slot.index = h.slot.index
  · -- a handle of the same slot under another generation: it is not live
    have hafter : ((q.put h st).effective h').held = none := by
      by_contra hheld
      have hlive' := (howned.put hlive).live_of_held hheld
      exact heq (hlive'.unique hlive hindex)
    have hbefore : (q.effective h').held = none := by
      by_contra hheld
      exact heq ((howned.live_of_held hheld).unique hlive hindex)
    rw [hafter, hbefore]
  · rw [effective_put_of_ne hindex]

end Owned

/-- Rewriting the state of a live endpoint changes what `h` holds only if it is the state
of `h`. -/
def PutsApart (arena : EndpointArena) (q : IpcQueues) (h : EndpointHandle) : Prop :=
  ∀ h' st, Live arena h' →
    ((q.put h' st).effective h).held = if h = h' then st.held else (q.effective h).held

theorem Owned.putsApart (howned : Owned arena q) (h : EndpointHandle) : PutsApart arena q h :=
  fun _ _ hlive => howned.held_put hlive h

theorem Live.putsApart (hlive : Live arena h) (q : IpcQueues) : PutsApart arena q h := by
  intro h' st hlive'
  rw [effective_put_live hlive' hlive]
  split <;> rfl

theorem PutsApart.refused (hput : PutsApart arena q h) (hq : Refused arena q q') :
    (q'.effective h).held = (q.effective h).held := by
  cases hq with
  | early => rfl
  | @settled h' hlive =>
    rw [hput h' _ hlive]
    split
    · next heq => rw [heq]
    · rfl

/-! ## Capabilities in flight -/

def EndpointState.inFlight (st : EndpointState) : Multiset Capability :=
  match st.held with
  | some (_, some c) => {c}
  | _ => 0

def IpcQueues.inFlight (q : IpcQueues) : Multiset Capability :=
  ∑ i ∈ cells endpointArenaCapacity, (q.states i).inFlight

theorem EndpointState.inFlight_congr {st st' : EndpointState} (hheld : st'.held = st.held) :
    st'.inFlight = st.inFlight := by
  unfold inFlight
  rw [hheld]

theorem Owned.inFlight_put (howned : Owned arena q) (hlive : Live arena h) :
    (q.put h st).inFlight + (q.effective h).inFlight = q.inFlight + st.inFlight := by
  have hbound := (mem_cells (n := endpointArenaCapacity) (by decide)).mpr hlive.bound
  have hold := EndpointState.inFlight_congr (howned.held_eq hlive)
  have hnew : ((q.put h st).states h.slot.index).inFlight = st.inFlight := by
    simp [IpcQueues.put]
  rw [← hold, ← hnew]
  unfold IpcQueues.inFlight
  apply sum_exchange (f := fun i => (q.states i).inFlight) hbound
  intro i hi
  simp [IpcQueues.put, hi]

/-- A refused call moves nothing. -/
theorem Refused.moves_nothing (hq : Refused arena q q') (howned : Owned arena q) :
    Owned arena q' ∧ q'.inFlight = q.inFlight ∧
      ∀ h, (q'.effective h).held = (q.effective h).held := by
  cases hq with
  | early => exact ⟨howned, rfl, fun _ => rfl⟩
  | @settled h hlive =>
    refine ⟨howned.put hlive, ?_, fun h' => ?_⟩
    · exact add_right_cancel (howned.inFlight_put hlive)
    · rw [howned.held_put hlive]
      split
      · next heq => rw [heq]
      · rfl

/-- An operation on a capability table alone. -/
def IpcOp.IsTable {τ : Type} : IpcOp τ → Prop
  | .table .. => True
  | _ => False

namespace IpcSystem

variable {τ : Type} [DecidableEq τ] {s s' : IpcSystem τ}

/-! ## What a run promises -/

omit [DecidableEq τ] in
/-- The message and capability an endpoint holds, if any. -/
def held (s : IpcSystem τ) (h : EndpointHandle) : List (Message × Option Capability) :=
  (s.queues.effective h).held.toList

/-- The endpoint that a handle of the table `t` names. -/
def target (t : CapabilityTable) (epCap : CapHandle) : Option EndpointHandle :=
  match (lookup epCap).run t with
  | .ok ⟨_, .endpoint h⟩ _ => some h
  | _ => none

/-- The capability that a handle of the table `t` names. -/
def named (t : CapabilityTable) (hd : Option CapHandle) : Option Capability :=
  match hd with
  | none => none
  | some hd =>
    match (lookup hd).run t with
    | .ok c _ => some c
    | _ => none

/-- What a send gives to the endpoint `h`: its message, and the capability its transfer
handle named in the sender's table. -/
def accepted (h : EndpointHandle) (ev : Event τ) : List (Message × Option Capability) :=
  match ev.op, ev.reply with
  | .send who epCap msg transfer, .ok _ =>
    if target (ev.before.tables who) epCap = some h then
      [(msg, named (ev.before.tables who) transfer)]
    else []
  | _, _ => []

/-- What a receive gets from the endpoint `h`: the message, and the capability the
returned handle names in the receiver's table. -/
def returned (h : EndpointHandle) (ev : Event τ) : List (Message × Option Capability) :=
  match ev.op, ev.reply with
  | .recv who epCap, .ok (.received (.received msg cap)) =>
    if target (ev.before.tables who) epCap = some h then
      [(msg, named (ev.after.tables who) cap)]
    else []
  | _, _ => []

/-- The event destroys no endpoint that holds a message. -/
def Drained (ev : Event τ) : Prop :=
  match ev.op with
  | .destroyEndpoint h => (ev.before.queues.effective h).held = none
  | _ => True

omit [DecidableEq τ] in
/-- Every capability of the system: in a table or in flight. -/
def capabilities [Fintype τ] (s : IpcSystem τ) : Multiset Capability :=
  ∑ who, (s.tables who).capabilities + s.queues.inFlight

/-- Where the capabilities of an event go: a transfer leaves the sender's table for the
endpoint under a handle that goes stale, a receive installs what the endpoint held under
the handle it returns, and everything else leaves the tables as they are. -/
def Moves (ev : Event τ) : Prop :=
  match ev.op, ev.reply with
  | .send who epCap msg (some xfer), .ok _ => ∃ h c,
      target (ev.before.tables who) epCap = some h ∧
      named (ev.before.tables who) (some xfer) = some c ∧
      (ev.before.tables who).capabilities = c ::ₘ (ev.after.tables who).capabilities ∧
      named (ev.after.tables who) (some xfer) = none ∧
      (ev.after.queues.effective h).held = some (msg, some c) ∧
      ∀ w, w ≠ who → ev.after.tables w = ev.before.tables w
  | .recv who epCap, .ok (.received (.received msg (some xfer))) => ∃ h c,
      target (ev.before.tables who) epCap = some h ∧
      (ev.before.queues.effective h).held = some (msg, some c) ∧
      (ev.after.tables who).capabilities = c ::ₘ (ev.before.tables who).capabilities ∧
      named (ev.after.tables who) (some xfer) = some c ∧
      (ev.after.queues.effective h).held = none ∧
      ∀ w, w ≠ who → ev.after.tables w = ev.before.tables w
  | _, _ => ev.after.tables = ev.before.tables

theorem target_of_targets {t : CapabilityTable} {epCap : CapHandle} {required : CapRights}
    (ht : Targets t epCap required h) : target t epCap = some h := by
  obtain ⟨⟨rights, object⟩, hrun, rfl, -⟩ := ht
  simp [target, hrun]

variable [Build]

theorem named_of_taken {t t' : CapabilityTable} {transfer : Option CapHandle}
    {owned : Option Capability} (hwf : t.WellFormed) (htaken : Taken t transfer owned t') :
    named t transfer = owned := by
  cases htaken with
  | nothing => rfl
  | cap hrun => simp [named, (capTake_moves hwf hrun).2.2.1]

omit [Build] in
theorem named_of_installed {t t' : CapabilityTable} {cap : Option Capability}
    {xfer : Option CapHandle} (hwf : t.WellFormed) (hinst : Installed t cap xfer t') :
    named t' xfer = cap := by
  cases hinst with
  | nothing => rfl
  | cap hrun => simp [named, (insertRoot_moves hwf hrun).2.2]

/-! ## One step -/

omit [Build] in
theorem held_endCall {who : τ} {t' : CapabilityTable} (hlive : Live s.epArena h)
    (hput : PutsApart s.epArena s.queues h') :
    held (s.endCall who ⟨s.epArena, s.queues.put h st, t'⟩) h' =
      if h' = h then st.held.toList else held s h' := by
  unfold held endCall setTable
  dsimp only
  rw [hput h st hlive]
  split <;> rfl

omit [Build] in
/-- A send puts what it accepted where nothing was held. -/
theorem ledger_put {who : τ} {t' : CapabilityTable} {message : Message}
    {cap : Option Capability} (hlive : Live s.epArena h)
    (hput : PutsApart s.epArena s.queues h') (hempty : (s.queues.effective h).held = none)
    (hheld : st.held = some (message, cap)) :
    held s h' ++ (if h = h' then [(message, cap)] else []) =
      held (s.endCall who ⟨s.epArena, s.queues.put h st, t'⟩) h' := by
  rw [held_endCall hlive hput]
  by_cases heq : h = h'
  · subst heq
    simp [held, hempty, hheld]
  · simp [heq, Ne.symm heq]

omit [Build] in
/-- An endpoint that holds nothing before and after changes no holding. -/
theorem held_empty {who : τ} {t' : CapabilityTable} (hlive : Live s.epArena h)
    (hput : PutsApart s.epArena s.queues h') (hempty : (s.queues.effective h).held = none)
    (hheld : st.held = none) :
    held s h' = held (s.endCall who ⟨s.epArena, s.queues.put h st, t'⟩) h' := by
  rw [held_endCall hlive hput]
  by_cases heq : h' = h
  · subst heq
    simp [held, hempty, hheld]
  · rw [if_neg heq]

/-- The messages of one step: what `h` held and accepted is what it returned and holds,
in this order. -/
theorem Effect.messages {ev : Event τ} (heffect : Effect ev.before ev.op ev.reply ev.after)
    (hwf : ∀ who, (ev.before.tables who).WellFormed)
    (hput : PutsApart ev.before.epArena ev.before.queues h') :
    held ev.before h' ++ accepted h' ev = returned h' ev ++ held ev.after h' := by
  obtain ⟨before, op, reply, after⟩ := ev
  dsimp only at *
  cases heffect with
  | failed hq => simp [accepted, returned, held, hput.refused hq]
  | table => simp [accepted, returned, held, setTable]
  | createEndpoint => simp [accepted, returned, held]
  | destroyEndpoint => simp [accepted, returned, held]
  | createNotification => simp [accepted, returned, held]
  | destroyNotification => simp [accepted, returned, held]
  | notify => simp [accepted, returned, held]
  | @send who epCap msg transfer _ _ hend =>
    cases hend with
    | @delivered h owned t' htarget hlive hstate _ htaken =>
      have hnamed := named_of_taken (hwf who) htaken
      have htarget' : target (before.tables who) epCap = some h := target_of_targets htarget
      simp only [accepted, returned, htarget', hnamed, Option.some.injEq, List.nil_append]
      exact ledger_put hlive hput (congrArg EndpointState.held hstate) rfl
    | @enqueued h owned t' htarget hlive hstate _ htaken =>
      have hnamed := named_of_taken (hwf who) htaken
      have htarget' : target (before.tables who) epCap = some h := target_of_targets htarget
      simp only [accepted, returned, htarget', hnamed, Option.some.injEq, List.nil_append]
      exact ledger_put hlive hput (congrArg EndpointState.held hstate) rfl
  | @recv who epCap _ _ hend =>
    cases hend with
    | @received h msg cap xfer t' htarget hlive hheld hinst =>
      have hnamed : named ((before.endCall who
          ⟨before.epArena, before.queues.put h .idle, t'⟩).tables who) xfer = cap := by
        simpa [endCall, setTable] using named_of_installed (hwf who) hinst
      have htarget' : target (before.tables who) epCap = some h := target_of_targets htarget
      have hheld' : held before h = [(msg, cap)] := by
        unfold held
        rw [show (before.queues.effective h).held = some (msg, cap) from hheld]
        rfl
      simp only [accepted, returned, htarget', Option.some.injEq, List.append_nil]
      dsimp only [call]
      rw [hnamed, held_endCall hlive hput]
      by_cases heq : h = h'
      · subst heq
        simp [hheld', EndpointState.held]
      · simp [heq, Ne.symm heq]
    | @registered h _ hlive hstate =>
      simp only [accepted, returned, List.append_nil, List.nil_append]
      exact held_empty hlive hput (congrArg EndpointState.held hstate) rfl
  | cancelRecv hend =>
    cases hend with
    | cancelled _ hlive hstate =>
      simp only [accepted, returned, List.append_nil, List.nil_append]
      exact held_empty hlive hput (congrArg EndpointState.held hstate) rfl
    | nothing _ _ hq =>
      have hheld := hput.refused hq
      simp [accepted, returned, held, hheld, endCall, setTable, call]

/-- A step that drops no message keeps every message with a live endpoint. -/
theorem Effect.owned {ev : Event τ} (heffect : Effect ev.before ev.op ev.reply ev.after)
    (howned : Owned ev.before.epArena ev.before.queues) (hdrained : Drained ev) :
    Owned ev.after.epArena ev.after.queues := by
  obtain ⟨before, op, reply, after⟩ := ev
  dsimp only at *
  cases heffect with
  | failed hq => exact (hq.moves_nothing howned).1
  | createEndpoint hlive => exact fun i hi => (hlive _).mpr (Or.inl (howned i hi))
  | @destroyEndpoint handle _ _ hlive =>
    refine fun i hi => (hlive _).mpr ⟨howned i hi, ?_⟩
    -- the destroyed endpoint holds nothing
    rintro rfl
    simp [Drained, effective] at hdrained
    exact hi hdrained
  | send hend =>
    cases hend with
    | delivered _ hlive => exact howned.put hlive
    | enqueued _ hlive => exact howned.put hlive
  | recv hend =>
    cases hend with
    | received _ hlive => exact howned.put hlive
    | registered _ hlive => exact howned.put hlive
  | cancelRecv hend =>
    cases hend with
    | cancelled _ hlive => exact howned.put hlive
    | nothing _ _ hq => exact (hq.moves_nothing howned).1
  | table => exact howned
  | createNotification => exact howned
  | destroyNotification => exact howned
  | notify => exact howned

omit [Build] in
theorem capabilities_endCall [Fintype τ] (who : τ) (st : EndpointState) (t' : CapabilityTable)
    (howned : Owned s.epArena s.queues) (hlive : Live s.epArena h) :
    capabilities (s.endCall who ⟨s.epArena, s.queues.put h st, t'⟩) +
        ((s.tables who).capabilities + (s.queues.effective h).inFlight) =
      capabilities s + (t'.capabilities + st.inFlight) := by
  have htables : ∑ w, ((s.setTable who t').tables w).capabilities +
      (s.tables who).capabilities = ∑ w, (s.tables w).capabilities +
        ((s.setTable who t').tables who).capabilities := by
    apply sum_exchange (f := fun w => (s.tables w).capabilities) (Finset.mem_univ who)
    intro w hw
    simp [setTable, hw]
  have hnew : (s.setTable who t').tables who = t' := by simp [setTable]
  have hqueues : (s.queues.put h st).inFlight + _ = _ := howned.inFlight_put hlive
  rw [hnew] at htables
  calc capabilities (s.endCall who ⟨s.epArena, s.queues.put h st, t'⟩) +
        ((s.tables who).capabilities + (s.queues.effective h).inFlight)
      = (∑ w, ((s.setTable who t').tables w).capabilities + (s.tables who).capabilities) +
        ((s.queues.put h st).inFlight + (s.queues.effective h).inFlight) := by
        simp only [capabilities, endCall]
        abel
    _ = (∑ w, (s.tables w).capabilities + t'.capabilities) +
        (s.queues.inFlight + st.inFlight) := by rw [htables, hqueues]
    _ = capabilities s + (t'.capabilities + st.inFlight) := by
        simp only [capabilities]
        abel

omit [Build] in
theorem endCall_tables_self {who : τ} {c : IpcCall} :
    (s.endCall who c).tables who = c.table := by
  simp [endCall, setTable]

omit [Build] in
theorem endCall_tables_of_ne {who w : τ} {c : IpcCall} (hw : w ≠ who) :
    (s.endCall who c).tables w = s.tables w := by
  simp [endCall, setTable, hw]

omit [Build] in
theorem endCall_tables_same {who : τ} {c : IpcCall} (htable : c.table = s.tables who) :
    (s.endCall who c).tables = s.tables := by
  simp [endCall, setTable, htable]

omit [DecidableEq τ] [Build] in
theorem moves_of_error {op : IpcOp τ} {err : SystemError} (htables : s'.tables = s.tables) :
    Moves ⟨s, op, .error err, s'⟩ := by
  cases op with
  | send who epCap msg transfer => cases transfer <;> exact htables
  | _ => exact htables

omit [Build] in
/-- A call that leaves the table and the in-flight capability of its endpoint alone. -/
theorem capabilities_still [Fintype τ] {who : τ} (howned : Owned s.epArena s.queues)
    (hlive : Live s.epArena h) (hheld : (s.queues.effective h).held = st.held) :
    capabilities (s.endCall who ⟨s.epArena, s.queues.put h st, s.tables who⟩) =
      capabilities s := by
  have hcaps := capabilities_endCall who st (s.tables who) howned hlive
  rw [EndpointState.inFlight_congr hheld] at hcaps
  exact add_right_cancel hcaps

/-- A send that put its message in the endpoint, on either path. -/
theorem sent_conserves [Fintype τ] {who : τ} {epCap : CapHandle} {transfer : Option CapHandle}
    {owned : Option Capability} {t' : CapabilityTable} {outcome : SendOutcome}
    (hwf : (s.tables who).WellFormed) (howned : Owned s.epArena s.queues)
    (htarget : target (s.tables who) epCap = some h) (hlive : Live s.epArena h)
    (hempty : (s.queues.effective h).held = none) (hheld : st.held = some (msg, owned))
    (htaken : Taken (s.tables who) transfer owned t') :
    capabilities (s.endCall who ⟨s.epArena, s.queues.put h st, t'⟩) = capabilities s ∧
    Moves ⟨s, .send who epCap msg transfer, .ok (.sent outcome),
      s.endCall who ⟨s.epArena, s.queues.put h st, t'⟩⟩ := by
  have hnone : (s.queues.effective h).inFlight = 0 := by simp [EndpointState.inFlight, hempty]
  cases htaken with
  | nothing =>
    constructor
    · have hsome : st.inFlight = 0 := by simp [EndpointState.inFlight, hheld]
      have hcaps := capabilities_endCall who st (s.tables who) howned hlive
      rw [hnone, hsome] at hcaps
      exact add_right_cancel hcaps
    · exact endCall_tables_same rfl
  | @cap xfer c t' hrun =>
    obtain ⟨-, htable, hbefore, hafter⟩ := capTake_moves hwf hrun
    constructor
    · have hsome : st.inFlight = {c} := by simp [EndpointState.inFlight, hheld]
      have hcaps := capabilities_endCall who st t' howned hlive
      rw [hnone, hsome, htable, add_zero, add_comm t'.capabilities,
        Multiset.singleton_add] at hcaps
      exact add_right_cancel hcaps
    · refine ⟨h, c, htarget, ?_, ?_, ?_, ?_, fun w hw => endCall_tables_of_ne hw⟩
      · simp [named, hbefore]
      · rw [endCall_tables_self]
        exact htable
      · simp [endCall_tables_self, named, hafter]
      · rw [← hheld]
        exact congrArg EndpointState.held effective_put

omit [Build] in
/-- A receive that emptied the endpoint. -/
theorem received_conserves [Fintype τ] {who : τ} {epCap : CapHandle} {cap : Option Capability}
    {xfer : Option CapHandle} {t' : CapabilityTable}
    (hwf : (s.tables who).WellFormed) (howned : Owned s.epArena s.queues)
    (htarget : target (s.tables who) epCap = some h) (hlive : Live s.epArena h)
    (hheld : (s.queues.effective h).held = some (msg, cap))
    (hinst : Installed (s.tables who) cap xfer t') :
    capabilities (s.endCall who ⟨s.epArena, s.queues.put h .idle, t'⟩) = capabilities s ∧
    Moves ⟨s, .recv who epCap, .ok (.received (.received msg xfer)),
      s.endCall who ⟨s.epArena, s.queues.put h .idle, t'⟩⟩ := by
  have hnone : EndpointState.inFlight .idle = 0 := rfl
  have hcaps := capabilities_endCall who .idle t' howned hlive
  cases hinst with
  | nothing =>
    constructor
    · have hsome : (s.queues.effective h).inFlight = 0 := by
        simp [EndpointState.inFlight, hheld]
      rw [hnone, hsome] at hcaps
      exact add_right_cancel hcaps
    · exact endCall_tables_same rfl
  | @cap c xfer t' hrun =>
    obtain ⟨-, htable, hafter⟩ := insertRoot_moves hwf hrun
    constructor
    · have hsome : (s.queues.effective h).inFlight = {c} := by
        simp [EndpointState.inFlight, hheld]
      rw [hnone, hsome, htable, add_zero, add_comm (s.tables who).capabilities,
        Multiset.singleton_add] at hcaps
      exact add_right_cancel hcaps
    · refine ⟨h, c, htarget, hheld, ?_, ?_, ?_, fun w hw => endCall_tables_of_ne hw⟩
      · rw [endCall_tables_self]
        exact htable
      · simp [endCall_tables_self, named, hafter]
      · exact congrArg EndpointState.held effective_put

theorem Effect.conserves [Fintype τ] {ev : Event τ}
    (heffect : Effect ev.before ev.op ev.reply ev.after)
    (hwf : ∀ who, (ev.before.tables who).WellFormed)
    (howned : Owned ev.before.epArena ev.before.queues) (hop : ¬ ev.op.IsTable) :
    capabilities ev.after = capabilities ev.before ∧ Moves ev := by
  obtain ⟨before, op, reply, after⟩ := ev
  dsimp only at *
  cases heffect with
  | failed hq =>
    obtain ⟨-, hflight, -⟩ := hq.moves_nothing howned
    exact ⟨by simp [capabilities, hflight], moves_of_error rfl⟩
  | table => exact absurd trivial hop
  | createEndpoint => exact ⟨rfl, rfl⟩
  | destroyEndpoint => exact ⟨rfl, rfl⟩
  | createNotification => exact ⟨rfl, rfl⟩
  | destroyNotification => exact ⟨rfl, rfl⟩
  | notify => exact ⟨rfl, rfl⟩
  | send hend =>
    cases hend with
    | delivered htarget hlive hstate _ htaken =>
      exact sent_conserves (hwf _) howned (target_of_targets htarget) hlive
        (congrArg EndpointState.held hstate) rfl htaken
    | enqueued htarget hlive hstate _ htaken =>
      exact sent_conserves (hwf _) howned (target_of_targets htarget) hlive
        (congrArg EndpointState.held hstate) rfl htaken
  | recv hend =>
    cases hend with
    | received htarget hlive hheld hinst =>
      exact received_conserves (hwf _) howned (target_of_targets htarget) hlive hheld hinst
    | registered _ hlive hstate =>
      have hheld := (congrArg EndpointState.held hstate).trans rfl
      exact ⟨capabilities_still howned hlive hheld, endCall_tables_same rfl⟩
  | cancelRecv hend =>
    cases hend with
    | cancelled _ hlive hstate =>
      have hheld := (congrArg EndpointState.held hstate).trans rfl
      exact ⟨capabilities_still howned hlive hheld, endCall_tables_same rfl⟩
    | nothing _ _ hq =>
      obtain ⟨-, hflight, -⟩ := hq.moves_nothing howned
      refine ⟨?_, endCall_tables_same rfl⟩
      simp [capabilities, endCall, setTable, call, hflight]

/-! ## Whole runs -/

/-- The tables are well formed and the messages belong to live endpoints. -/
structure Sound (s : IpcSystem τ) : Prop where
  tables : ∀ who, (s.tables who).WellFormed
  owned : Owned s.epArena s.queues

/-- An effect that drops no message keeps the system sound. -/
theorem Sound.effect {ev : Event τ} (hsound : Sound ev.before) (hdrained : Drained ev)
    (heffect : Effect ev.before ev.op ev.reply ev.after) : Sound ev.after :=
  ⟨heffect.wellFormed hsound.tables, heffect.owned hsound.owned hdrained⟩

theorem Sound.step {ev : Event τ} (hsound : Sound s) (hdrained : Drained ev)
    (hstep : Step s ev s') : Sound s' := by
  have heffect := Effect.of_step hsound.tables hstep
  obtain ⟨rfl, rfl, -⟩ := hstep
  exact hsound.effect hdrained heffect

theorem Sound.run {evs : List (Event τ)} (hsound : Sound s) (hrun : Run Step s evs s')
    (hdrained : ∀ ev ∈ evs, Drained ev) : Sound s' :=
  (hrun.with_events hdrained).invariant
    (fun _ _ _ hs hstep => hs.step hstep.1 hstep.2) hsound

omit [DecidableEq τ] [Build] in
theorem boot_sound : Sound (boot : IpcSystem τ) where
  tables _ := new_wellFormed
  owned _ hheld := absurd rfl hheld

/-- In a sound system no operation on endpoints would drop a capability. -/
theorem Sound.returns (hsound : Sound s) {op : IpcOp τ} (hop : op.IsIpc) :
    ∃ reply s', (exec op).run s = .returned reply s' := by
  rcases ends_of_exec hsound.tables op with ⟨reply, s', hexec, -⟩ | ⟨msg, -, hundrained⟩
  · exact ⟨reply, s', hexec⟩
  · obtain ⟨h, hlive, hun⟩ := hundrained hop
    exact absurd hun (hsound.owned.not_undrained hlive)

/-- What a run of IPC operations preserves: the capabilities of the whole system, the
messages of every endpoint in order, and the place of every single capability. -/
structure Conserved [Fintype τ] (s : IpcSystem τ) (evs : List (Event τ)) (s' : IpcSystem τ) :
    Prop where
  capabilities : capabilities s' = capabilities s
  messages : ∀ h, held s h ++ evs.flatMap (accepted h) =
    evs.flatMap (returned h) ++ held s' h
  moves : ∀ ev ∈ evs, Moves ev

theorem Sound.conserved [Fintype τ] {evs : List (Event τ)} (hsound : Sound s)
    (hrun : Run Step s evs s') (hdrained : ∀ ev ∈ evs, Drained ev)
    (hops : ∀ ev ∈ evs, ¬ ev.op.IsTable) : Conserved s evs s' := by
  have hall := hrun.with_events fun ev hev => And.intro (hdrained ev hev) (hops ev hev)
  have hsteps := hall.with_invariant (I := Sound)
    (fun _ _ _ hs hstep => hs.step hstep.1.1 hstep.2) hsound
  have hone : ∀ (t : IpcSystem τ) ev t',
      Sound t ∧ (Drained ev ∧ ¬ ev.op.IsTable) ∧ Step t ev t' →
      (IpcSystem.capabilities t' = IpcSystem.capabilities t ∧ Moves ev) ∧
      ∀ h, held t h ++ accepted h ev = returned h ev ++ held t' h := by
    rintro t ev t' ⟨ht, ⟨hd, hop⟩, hstep⟩
    have heffect := Effect.of_step ht.tables hstep
    obtain ⟨rfl, rfl, -⟩ := hstep
    exact ⟨heffect.conserves ht.tables ht.owned hop,
      fun h => heffect.messages ht.tables (ht.owned.putsApart h)⟩
  refine ⟨?_, fun h => ?_, fun ev hev => ?_⟩
  · apply hsteps.invariant (I := fun t => IpcSystem.capabilities t = IpcSystem.capabilities s) _ rfl
    intro t ev t' ht hstep
    rw [((hone t ev t' hstep).1).1, ht]
  · exact hsteps.ledger (held · h) (accepted h) (returned h) fun t ev t' hstep =>
      (hone t ev t' hstep).2 h
  · obtain ⟨t, t', -, -, -, hstep, -⟩ := hsteps.exists_step hev
    exact ((hone t ev t' hstep).1).2

/-- From every system that a disciplined run has set up, a run of IPC operations, of any
length and with any outcomes, conserves capabilities and messages, and none of its
operations panics. -/
theorem ipc_conserves [Fintype τ] {setup evs : List (Event τ)} {s₀ s₁ : IpcSystem τ}
    (hsetup : Run Step boot setup s₀) (hrun : Run Step s₀ evs s₁)
    (hdrained : ∀ ev ∈ setup ++ evs, Drained ev) (hops : ∀ ev ∈ evs, ¬ ev.op.IsTable) :
    Conserved s₀ evs s₁ ∧
    ∀ op : IpcOp τ, op.IsIpc → ∃ reply s', (exec op).run s₁ = .returned reply s' := by
  have hsound₀ := boot_sound.run hsetup fun ev hev => hdrained ev (List.mem_append_left _ hev)
  have hevs : ∀ ev ∈ evs, Drained ev := fun ev hev => hdrained ev (List.mem_append_right _ hev)
  exact ⟨hsound₀.conserved hrun hevs hops, fun op hop => (hsound₀.run hrun hevs).returns hop⟩

/-- The system after an operation of a debug build. -/
def performed (s : IpcSystem τ) (op : IpcOp τ) : IpcSystem τ :=
  match (@exec τ _ ⟨true⟩ op).run s with
  | .ok _ s' | .err _ s' => s'
  | .panic _ => s

omit [Build] in
theorem performed_step (s : IpcSystem τ) (op : IpcOp τ) (reply : IpcReply)
    (hexec : (@exec τ _ ⟨true⟩ op).run s = .ok reply (s.performed op)) :
    @Step τ _ ⟨true⟩ s ⟨s, op, .ok reply, s.performed op⟩ (s.performed op) :=
  @Step.mk τ _ ⟨true⟩ _ _ _ rfl rfl hexec

def endpointOnly : IpcSystem Bool := boot.performed (.createEndpoint ⟨7⟩)

/-- A sender `false`, first without and then with a capability to give away. -/
def sender : IpcSystem Bool :=
  endpointOnly.performed (.table false (.insertRoot ⟨.send, .endpoint ⟨⟨0, 0⟩⟩⟩))

def giver : IpcSystem Bool :=
  sender.performed (.table false (.insertRoot ⟨.transfer, .debugConsole⟩))

/-- With a receiver `true`. -/
def giverAndReceiver : IpcSystem Bool :=
  giver.performed (.table true (.insertRoot ⟨.recv, .endpoint ⟨⟨0, 0⟩⟩⟩))

def given : IpcSystem Bool :=
  giverAndReceiver.performed (.send false ⟨0, 0⟩ ⟨1, 2, 3, 4⟩ (some ⟨1, 0⟩))

/-- The receiver has it. -/
def collected : IpcSystem Bool := given.performed (.recv true ⟨0, 0⟩)

omit [DecidableEq τ] [Build] in
theorem giverAndReceiver_run : ∃ setup : List (Event Bool),
    @Run _ _ (@Step Bool _ ⟨true⟩) boot setup giverAndReceiver ∧ ∀ ev ∈ setup, Drained ev := by
  have hendpoint :=
    performed_step (boot : IpcSystem Bool) (.createEndpoint ⟨7⟩) (.endpoint ⟨⟨0, 0⟩⟩)
    (by with_unfolding_all rfl)
  have hsender := performed_step endpointOnly
    (.table false (.insertRoot ⟨.send, .endpoint ⟨⟨0, 0⟩⟩⟩)) (.table (.handle ⟨0, 0⟩))
    (by with_unfolding_all rfl)
  have hgiver := performed_step sender
    (.table false (.insertRoot ⟨.transfer, .debugConsole⟩)) (.table (.handle ⟨1, 0⟩))
    (by with_unfolding_all rfl)
  have hreceiver := performed_step giver
    (.table true (.insertRoot ⟨.recv, .endpoint ⟨⟨0, 0⟩⟩⟩)) (.table (.handle ⟨0, 0⟩))
    (by with_unfolding_all rfl)
  let _ : Build := ⟨true⟩
  have hsetup := Run.cons hendpoint (.cons hsender (.cons hgiver (.single hreceiver)))
  exact ⟨_, hsetup, by simp [Drained]⟩

/-- A send that parks the capability and a receive that installs it. -/
def transferCalls : List (IpcOp Bool × Except SystemError IpcReply) :=
  [(.send false ⟨0, 0⟩ ⟨1, 2, 3, 4⟩ (some ⟨1, 0⟩), .ok (.sent .enqueued)),
    (.recv true ⟨0, 0⟩, .ok (.received (.received ⟨1, 2, 3, 4⟩ (some ⟨1, 0⟩))))]

omit [DecidableEq τ] [Build] in
theorem collected_run : ∃ evs : List (Event Bool),
    @Run _ _ (@Step Bool _ ⟨true⟩) giverAndReceiver evs collected ∧
    evs.map (fun ev => (ev.op, ev.reply)) = transferCalls ∧
    ∀ ev ∈ evs, Drained ev ∧ ¬ ev.op.IsTable := by
  have hsend := performed_step giverAndReceiver
    (.send false ⟨0, 0⟩ ⟨1, 2, 3, 4⟩ (some ⟨1, 0⟩)) (.sent .enqueued)
    (by with_unfolding_all rfl)
  have hrecv := performed_step given (.recv true ⟨0, 0⟩)
    (.received (.received ⟨1, 2, 3, 4⟩ (some ⟨1, 0⟩))) (by with_unfolding_all rfl)
  let _ : Build := ⟨true⟩
  exact ⟨_, Run.cons hsend (.single hrecv), rfl, by simp [Drained, IpcOp.IsTable]⟩

omit [DecidableEq τ] [Build] in
/-- The sender gives its capability away and the receiver gets it. -/
theorem ipc_conserves_transfer : ∃ (setup evs : List (Event Bool)) (s₁ : IpcSystem Bool),
    @Run _ _ (@Step Bool _ ⟨true⟩) boot setup giverAndReceiver ∧
    @Run _ _ (@Step Bool _ ⟨true⟩) giverAndReceiver evs s₁ ∧
    evs.map (fun ev => (ev.op, ev.reply)) = transferCalls ∧ Conserved giverAndReceiver evs s₁ := by
  obtain ⟨setup, hsetup, hquiet⟩ := giverAndReceiver_run
  obtain ⟨evs, hrun, hcalls, hevs⟩ := collected_run
  let _ : Build := ⟨true⟩
  have hdrained : ∀ ev ∈ setup ++ evs, Drained ev := by
    intro ev hev
    rcases List.mem_append.mp hev with hmem | hmem
    · exact hquiet ev hmem
    · exact (hevs ev hmem).1
  exact ⟨setup, evs, collected, hsetup, hrun, hcalls,
    (ipc_conserves hsetup hrun hdrained fun ev hev => (hevs ev hev).2).1⟩

end IpcSystem

end Tyrne
